/-
Sizes on their way from the command line to the font. Wherever a size is given among the arguments, it is the one that is
read (`mem_of_gives`), and what is read is in range or nothing is; each kind of font takes every size that is read. So no
run fails over its size. `size_is_never_refused` puts this together with what happens to a size that is out of range: no
job, and no use of any file.
-/
import GlyphImage.Proofs.CommandLine.Settings
import GlyphImage.Proofs.Effects

namespace GlyphImage

/-! ## Texts that differ -/

/-- the texts differ before either of them ends -/
def Apart (words text : String) : Prop := ¬words.toList <+: text.toList ∧ ¬text.toList <+: words.toList

instance (words text : String) : Decidable (Apart words text) := inferInstanceAs (Decidable (_ ∧ _))

theorem Apart.append {words front : String} (h : Apart words front) (rest : String) : Apart words (front ++ rest) := by
  obtain ⟨hwords, hfront⟩ := h
  have hfronts : front.toList <+: (front ++ rest).toList := by
    rw [String.toList_append]
    exact List.prefix_append _ _
  refine ⟨fun hprefix => ?_, fun hprefix => hfront (hfronts.trans hprefix)⟩
  rcases List.prefix_or_prefix_of_prefix hprefix hfronts with h | h
  · exact hwords h
  · exact hfront h

theorem Apart.append_left {words text : String} (h : Apart words text) (front : String) :
    Apart (front ++ words) (front ++ text) := by
  unfold Apart
  simp only [String.toList_append, List.prefix_append_right_inj]
  exact h

/-! ## Failures over sizes -/

namespace RenderError

/-- the font's own error below a failure -/
def fontError? : RenderError → Option FontError
  | loadFont _ cause => some cause
  | setSize _ cause => some cause
  | rasterize _ cause => some cause
  | glyphNotFound _ => none
  | allocation _ => none
  | write _ => none

/-- a size was refused: by the step that selects it, or by a font -/
def RefusesSize (e : RenderError) : Prop :=
  (∃ sizePx cause, e = .setSize sizePx cause) ∨ ∃ sizePx, e.fontError? = some (.invalidPixelSize sizePx)

/-- only a refused size is reported as such -/
theorem apart_message {e : RenderError} (h : ¬e.RefusesSize) : Apart "Failed to set font size" e.message := by
  cases e with
  | setSize sizePx cause => exact absurd (Or.inl ⟨sizePx, cause, rfl⟩) h
  | loadFont path cause => exact Apart.append (by decide) path
  | glyphNotFound character =>
    exact (Apart.append (by decide) (Quoted.char character)).append " not found in font"
  | rasterize character cause => exact Apart.append (by decide) (Quoted.char character)
  | allocation cause =>
    change Apart "Failed to set font size" "Failed to allocate memory for buffer"
    decide
  | write cause =>
    cases cause with
    | openFile path cause => exact Apart.append (by decide) path
    | writeFile path cause => exact Apart.append (by decide) path

theorem apart_failureText {e : RenderError} (h : ¬e.RefusesSize) :
    Apart "Error: Failed to set font size" (Program.failureText e) := by
  have hfront : Apart ("Error: " ++ "Failed to set font size") ("Error: " ++ e.message) :=
    (apart_message h).append_left "Error: "
  exact (hfront.append "\n").append _

end RenderError

/-! ## Runs -/

theorem openFont_ne_invalidPixelSize (file : List UInt8) (sizePx : UInt32) :
    (openFont file).1 ≠ .error (.invalidPixelSize sizePx) := by
  intro h
  rcases openFont_error h with ⟨-, ⟨fault, hfault, -⟩ | ⟨fault, hfault⟩⟩ | ⟨-, fault, hfault⟩ | ⟨-, -, hfault⟩ <;>
    cases hfault

theorem OpenFace.rasterize_ne_invalidPixelSize (face : OpenFace) (index : GlyphIndex) (sizePx : UInt32) :
    face.rasterize index ≠ .error (.invalidPixelSize sizePx) := by
  intro h
  cases face with
  | pff2 font => rcases Pff2.Font.rasterize_eq_error_iff.1 h with ⟨-, he⟩ | ⟨g, -, -, he⟩ <;> cases he
  | trueType face =>
    rcases TrueType.Face.rasterize_eq_error_iff.1 h with ⟨-, he⟩ | ⟨id, -, hmalformed⟩
    · cases he
    · cases (TrueType.Raster.toGlyph_eq_error_iff.1 hmalformed).2

/-- a face that draws at a size it has taken does not fail over it -/
theorem OpenFace.not_refusesSize_of_draw {face : OpenFace} {character : Char} {e : RenderError}
    (h : face.draw character = .error e) : ¬e.RefusesSize := by
  unfold draw at h
  cases hindex : face.glyphIndex character with
  | none =>
    simp only [hindex] at h
    obtain rfl := Except.error.inj h
    simp [RenderError.RefusesSize, RenderError.fontError?]
  | some index =>
    simp only [hindex] at h
    cases hraster : face.rasterize index with
    | error cause =>
      simp only [hraster, RenderedGlyph.ofRaster] at h
      obtain rfl := Except.error.inj h
      have hcause : ∀ sizePx, cause ≠ .invalidPixelSize sizePx := fun sizePx heq =>
        face.rasterize_ne_invalidPixelSize index sizePx (heq ▸ hraster)
      cases cause <;> simp_all [RenderError.RefusesSize, RenderError.fontError?, RenderError.ofRasterize]
    | ok glyph =>
      simp only [hraster, RenderedGlyph.ofRaster] at h
      split at h
      · obtain rfl := Except.error.inj h
        simp [RenderError.RefusesSize, RenderError.fontError?]
      · cases h

section

variable {job : Job} {e : RenderError}

theorem Job.not_refusesSize_of_renderFile (hsize : job.sizePx ≠ 0) {file : List UInt8}
    (h : (job.renderFile file).1 = .error e) : ¬e.RefusesSize := by
  unfold renderFile at h
  have hopened := openFont_ne_invalidPixelSize file
  cases hfont : openFont file with
  | mk opened warnings =>
    rw [hfont] at h hopened
    cases opened with
    | error cause =>
      obtain rfl := Except.error.inj h
      have hcause : ∀ sizePx, cause ≠ .invalidPixelSize sizePx := fun sizePx heq =>
        hopened sizePx (congrArg Except.error heq)
      simp [RenderError.RefusesSize, RenderError.fontError?, hcause]
    | ok face =>
      simp only [Session.render_eq, if_neg hsize] at h
      exact OpenFace.not_refusesSize_of_draw h

/-- **A run never fails over a size other than 0**, whatever the font file holds and whatever fails on the disk. -/
theorem Job.not_refusesSize_of_run (hsize : job.sizePx ≠ 0) {faults : Machine.Faults} {m m' : Machine}
    (h : job.run (Machine.hostOn faults) m = (.error e, m')) : ¬e.RefusesSize := by
  rw [run_hostOn] at h
  split at h
  · obtain ⟨he, -⟩ := Prod.mk.inj h
    obtain rfl := Except.error.inj he
    simp [RenderError.RefusesSize, RenderError.fontError?]
  · split at h
    · rename_i hrendered
      obtain ⟨he, -⟩ := Prod.mk.inj h
      obtain rfl := Except.error.inj he
      exact not_refusesSize_of_renderFile hsize hrendered
    · split at h
      · obtain ⟨he, -⟩ := Prod.mk.inj h
        obtain rfl := Except.error.inj he
        simp [RenderError.RefusesSize, RenderError.fontError?]
      · cases h

end

namespace CommandLine

/-! ## Sizes that are given -/

theorem IsValue.named?_eq_none {value : String} (h : IsValue value) : (Word.ofString value).named? = none := by
  rw [Word.ofString_eq_plain_iff.2 ⟨h, rfl⟩]
  rfl

section

variable {arguments : List String} {assignments : List Assignment} {setting : Setting} {value argument : String}

theorem mem_of_attaches (hassigns : Assigns arguments assignments) (hmem : argument ∈ arguments)
    (hargument : setting.Attaches value argument) : (setting, value) ∈ assignments := by
  have hnamed := Setting.attaches_iff.1 hargument
  induction hassigns with
  | nothing => cases hmem
  | separator =>
    rw [List.mem_singleton.1 hmem] at hnamed
    cases hnamed
  | attached hfirst hlater ih =>
    rcases List.mem_cons.1 hmem with rfl | hmem
    · obtain ⟨rfl, hvalue⟩ := Prod.mk.inj (Option.some.inj (hnamed.symm.trans (Setting.attaches_iff.1 hfirst)))
      obtain rfl := Option.some.inj hvalue
      exact List.mem_cons_self
    · exact List.mem_cons_of_mem _ (ih hmem)
  | following hfirst hvalue hlater ih =>
    rcases List.mem_cons.1 hmem with rfl | hmem
    · cases hnamed.symm.trans (Setting.names_iff.1 hfirst)
    · rcases List.mem_cons.1 hmem with rfl | hmem
      · cases hnamed.symm.trans hvalue.named?_eq_none
      · exact List.mem_cons_of_mem _ (ih hmem)

theorem mem_of_names (hassigns : Assigns arguments assignments) (hpair : [argument, value] <:+: arguments)
    (hargument : setting.Names argument) : (setting, value) ∈ assignments := by
  have hnamed := Setting.names_iff.1 hargument
  induction hassigns with
  | nothing => cases List.infix_nil.1 hpair
  | separator => exact absurd hpair.length_le (by simp)
  | attached hfirst hlater ih =>
    rcases List.infix_cons_iff.1 hpair with hprefix | hpair
    · obtain ⟨rfl, -⟩ := List.cons_prefix_cons.1 hprefix
      cases hnamed.symm.trans (Setting.attaches_iff.1 hfirst)
    · exact List.mem_cons_of_mem _ (ih hpair)
  | following hfirst hvalue hlater ih =>
    rcases List.infix_cons_iff.1 hpair with hprefix | hpair
    · obtain ⟨rfl, hvalues⟩ := List.cons_prefix_cons.1 hprefix
      obtain ⟨rfl, -⟩ := List.cons_prefix_cons.1 hvalues
      obtain ⟨rfl, -⟩ := Prod.mk.inj (Option.some.inj (hnamed.symm.trans (Setting.names_iff.1 hfirst)))
      exact List.mem_cons_self
    · rcases List.infix_cons_iff.1 hpair with hprefix | hpair
      · obtain ⟨rfl, -⟩ := List.cons_prefix_cons.1 hprefix
        cases hnamed.symm.trans hvalue.named?_eq_none
      · exact List.mem_cons_of_mem _ (ih hpair)

/-- **What is given anywhere is what is read**: where the arguments are accepted, a name with a value is never the value of
another setting. -/
theorem mem_of_gives (hassigns : Assigns arguments assignments) (hgives : Gives arguments setting value) :
    (setting, value) ∈ assignments := by
  rcases hgives with ⟨argument, hmem, hargument⟩ | ⟨argument, hargument, hpair⟩
  · exact mem_of_attaches hassigns hmem hargument
  · exact mem_of_names hassigns hpair hargument

end

namespace Settings

variable {s s' : Settings} {setting : Setting} {value : String} {n : UInt32}

theorem size_of_settle (h : s.settle .size value = .ok s') : ∃ n, readSize value = .ok n ∧ s'.size = some n := by
  obtain ⟨after, honce, rfl⟩ := map_eq_ok h
  obtain ⟨n, hread, -, rfl⟩ := exists_of_once honce
  exact ⟨n, hread, rfl⟩

/-- a size that is made is kept: a second one is refused -/
theorem size_settle (hsize : s.size = some n) (h : s.settle setting value = .ok s') : s'.size = some n := by
  cases setting with
  | size =>
    obtain ⟨after, honce, -⟩ := map_eq_ok h
    obtain ⟨-, -, hnone, -⟩ := exists_of_once honce
    cases hnone.symm.trans hsize
  | fontFile | character | output =>
    obtain ⟨after, -, rfl⟩ := map_eq_ok h
    exact hsize

theorem size_settleAll {assignments : List Assignment} (hsize : s.size = some n)
    (h : s.settleAll assignments = .ok s') : s'.size = some n := by
  induction assignments generalizing s with
  | nil =>
    obtain rfl := Except.ok.inj h
    exact hsize
  | cons a rest ih =>
    obtain ⟨made, hmade, hlater⟩ := exists_of_bind_eq_ok h
    exact ih (size_settle hsize hmade) hlater

theorem size_of_settleAll {assignments : List Assignment} (h : s.settleAll assignments = .ok s')
    (hmem : (.size, value) ∈ assignments) : ∃ n, readSize value = .ok n ∧ s'.size = some n := by
  induction assignments generalizing s with
  | nil => cases hmem
  | cons a rest ih =>
    obtain ⟨made, hmade, hlater⟩ := exists_of_bind_eq_ok h
    rcases List.mem_cons.1 hmem with rfl | hmem
    · obtain ⟨n, hread, hsize⟩ := size_of_settle hmade
      exact ⟨n, hread, size_settleAll hsize hlater⟩
    · exact ih hlater hmem

theorem sizePx_of_job {job : Job} (h : s.job = .ok job) : job.sizePx = s.size.getD defaultSize := by
  unfold Settings.job at h
  split at h
  · cases h
  · obtain rfl := Except.ok.inj h
    cases s.output <;> rfl

end Settings

theorem size_in_range {arguments : List String} {job : Job} (h : parse arguments = .ok job) :
    1 ≤ job.sizePx.toNat ∧ job.sizePx.toNat ≤ 2 ^ 32 - 1 := by
  obtain ⟨-, hsize, -⟩ := job_of_parse h
  have hpositive : job.sizePx.toNat ≠ 0 := fun hzero => hsize (UInt32.toNat_inj.1 hzero)
  have hlimit := job.sizePx.toNat_lt
  omega

/-- **A size that is given is the size of the job**, in whatever way it is given. -/
theorem numeral_of_parse {arguments : List String} {job : Job} (h : parse arguments = .ok job) {value : String}
    (hgives : Gives arguments .size value) : Numeral value job.sizePx.toNat := by
  obtain ⟨assignments, settings, hassigns, hsettled, hjob⟩ := parse_eq_ok_iff.1 h
  obtain ⟨n, hread, hsize⟩ := Settings.size_of_settleAll hsettled (mem_of_gives hassigns hgives)
  rw [Settings.sizePx_of_job hjob, hsize]
  exact (readSize_eq_ok_iff.1 hread).1

end CommandLine

/-! ## Programs -/

section

variable {arguments : List String} {stop : CommandLine.Stop}

/-- **Arguments that ask for no job are answered without a file**: surroundings that differ only in their files, and in
what they do with warnings, are treated alike. -/
theorem Program.run_of_stop (h : CommandLine.parse arguments = .error stop) {m : Type → Type} [Monad m] {handle : Type}
    {host host' : Host m handle} (hprint : host.print = host'.print) (hcomplain : host.complain = host'.complain) :
    Program.run host arguments = Program.run host' arguments := by
  unfold Program.run
  rw [h]
  cases stop <;> simp only [hprint, hcomplain]

/-- the exit code for such arguments, and the machine with the answer on one of its outputs -/
def Program.answer (m : Machine) : CommandLine.Stop → UInt32 × Machine
  | .displayHelp => (0, { m with output := m.output ++ helpText })
  | .displayVersion => (0, { m with output := m.output ++ versionText })
  | stop => (2, { m with errorOutput := m.errorOutput ++ usageText stop })

theorem Program.run_hostOn_of_stop (h : CommandLine.parse arguments = .error stop) (faults : Machine.Faults)
    (m : Machine) : Program.run (Machine.hostOn faults) arguments m = answer m stop := by
  unfold Program.run
  rw [h]
  cases stop <;> rfl

theorem Program.tree_run_of_stop (h : CommandLine.parse arguments = .error stop) (faults : Machine.Faults) (m : Machine) :
    (Program.run (Machine.hostOn faults) arguments m).2.tree = m.tree := by
  rw [run_hostOn_of_stop h]
  cases stop <;> rfl

end

theorem Job.errorOutput_run (job : Job) (faults : Machine.Faults) (m : Machine) :
    (job.run (Machine.hostOn faults) m).2.errorOutput = m.errorOutput := by
  obtain ⟨noted, ⟨_, -, hrun⟩ | ⟨_, -, _, -, ⟨_, hrun⟩ | ⟨_, -, -, hrun⟩⟩⟩ := job.run_cases faults m <;> rw [hrun]

/-- **What a program complains about** is never a refused size: it is about the arguments, or about another failure. -/
theorem Program.exists_complaint (arguments : List String) (faults : Machine.Faults) (m : Machine) :
    ∃ complaint, (Program.run (Machine.hostOn faults) arguments m).2.errorOutput = m.errorOutput ++ complaint ∧
      (complaint = "" ∨ Apart "Error: Failed to set font size" complaint) := by
  cases hparse : CommandLine.parse arguments with
  | error stop =>
    rw [run_hostOn_of_stop hparse]
    cases stop with
    | displayHelp | displayVersion => exact ⟨"", String.append_empty.symm, Or.inl rfl⟩
    | unknownArgument | invalidValue | valueValidation | argumentConflict | tooManyValues | missingRequiredArgument =>
      exact ⟨_, rfl, Or.inr (by decide)⟩
  | ok job =>
    rw [run_hostOn faults m hparse]
    have herrors := job.errorOutput_run faults m
    cases hrun : job.run (Machine.hostOn faults) m with
    | mk result m' =>
      rw [hrun] at herrors
      cases result with
      | error e =>
        have hother : ¬e.RefusesSize := Job.not_refusesSize_of_run (CommandLine.job_of_parse hparse).2.1 hrun
        exact ⟨Program.failureText e, congrArg (· ++ _) herrors, Or.inr (RenderError.apart_failureText hother)⟩
      | ok rendered => exact ⟨"", herrors.trans String.append_empty.symm, Or.inl rfl⟩

namespace CommandLine

/-- **A size is never refused once there is a job.** Whatever the arguments are: if they ask for a job, its size is in
range and is the number that the arguments give, fonts of both kinds take it, and no run of the job fails over a size,
whatever files there are and whatever fails on the disk. The program never complains that it failed to set a size. If the
arguments give a size that is no decimal number in range, there is no job: surroundings with other files are treated
alike, and no file changes. -/
theorem size_is_never_refused (arguments : List String) :
    (∀ job, parse arguments = .ok job →
      1 ≤ job.sizePx.toNat ∧ job.sizePx.toNat ≤ 2 ^ 32 - 1 ∧
      (∀ value, Gives arguments .size value → Numeral value job.sizePx.toNat) ∧
      (∀ face : OpenFace, ∃ selected, face.setPixelSize job.sizePx = .ok selected) ∧
      ∀ faults m e m', job.run (Machine.hostOn faults) m = (.error e, m') →
        (∀ sizePx cause, e ≠ .setSize sizePx cause) ∧ ∀ sizePx, e.fontError? ≠ some (.invalidPixelSize sizePx)) ∧
    (∀ faults m, ∃ complaint,
      (Program.run (Machine.hostOn faults) arguments m).2.errorOutput = m.errorOutput ++ complaint ∧
      ¬"Error: Failed to set font size".toList <+: complaint.toList) ∧
    ∀ value, Gives arguments .size value → (∀ n, Numeral value n → n < 1 ∨ 2 ^ 32 - 1 < n) →
      (∀ job, parse arguments ≠ .ok job) ∧
      (∀ (m : Type → Type) [Monad m] (handle : Type) (host host' : Host m handle), host.print = host'.print →
        host.complain = host'.complain → Program.run host arguments = Program.run host' arguments) ∧
      ∀ faults m, (Program.run (Machine.hostOn faults) arguments m).2.tree = m.tree := by
  refine ⟨fun job hparse => ?_, fun faults m => ?_, fun value hgives hrange => ?_⟩
  · obtain ⟨-, hsize, -⟩ := job_of_parse hparse
    obtain ⟨hpositive, hlimit⟩ := size_in_range hparse
    refine ⟨hpositive, hlimit, fun value hgives => numeral_of_parse hparse hgives, fun face => ?_, ?_⟩
    · rw [face.setPixelSize_eq, if_neg hsize]
      exact ⟨_, rfl⟩
    · intro faults m e m' hrun
      have hother := Job.not_refusesSize_of_run hsize hrun
      exact ⟨fun sizePx cause he => hother (Or.inl ⟨sizePx, cause, he⟩), fun sizePx he => hother (Or.inr ⟨sizePx, he⟩)⟩
  · obtain ⟨complaint, herrors, rfl | hother⟩ := Program.exists_complaint arguments faults m
    · exact ⟨"", herrors, by decide⟩
    · exact ⟨complaint, herrors, hother.1⟩
  · have hrefused : ∀ job, parse arguments ≠ .ok job := by
      intro job hparse
      have hin := size_in_range hparse
      have hout := hrange _ (numeral_of_parse hparse hgives)
      omega
    obtain ⟨stop, hstop⟩ : ∃ stop, parse arguments = .error stop := by
      cases hparse : parse arguments with
      | error stop => exact ⟨stop, rfl⟩
      | ok job => exact absurd hparse (hrefused job)
    refine ⟨hrefused, ?_, fun faults m => Program.tree_run_of_stop hstop faults m⟩
    intro m _ handle host host' hprint hcomplain
    exact Program.run_of_stop hstop hprint hcomplain

/-- the number behind a plus sign is the size of the job; sizes that are 0, negative, fractional, no number or too large
give no job and change no file -/
theorem size_is_never_refused_spellings :
    parse ["-f", "t.pf2", "-s", "+7"] = .ok ⟨"t.pf2", 'A', 7, "glyph_A_7px.ppm"⟩ ∧ Numeral "+7" 7 ∧
    ∀ value ∈ ["0", "-1", "1.5", "seven", "4294967296"],
      (∀ job, parse ["-s" ++ value, "-f", "t.pf2"] ≠ .ok job) ∧
      ∀ m, (Program.run (Machine.hostOn {}) ["-s" ++ value, "-f", "t.pf2"] m).2.tree = m.tree := by
  have hparse : parse ["-f", "t.pf2", "-s", "+7"] = .ok ⟨"t.pf2", 'A', 7, "glyph_A_7px.ppm"⟩ := by cbv
  refine ⟨hparse, ?_, fun value hvalue => ?_⟩
  · obtain ⟨-, -, hnumeral, -⟩ := (size_is_never_refused ["-f", "t.pf2", "-s", "+7"]).1 _ hparse
    exact hnumeral "+7" (Or.inr ⟨"-s", Or.inr rfl, ⟨["-f", "t.pf2"], [], rfl⟩⟩)
  · have hmarks : (value ≠ "" ∧ value.toList.head? ≠ some '=') ∧ ((unsignedDigits value.toList).all Char.isDigit →
        digitsValue (unsignedDigits value.toList) < 1 ∨ 2 ^ 32 - 1 < digitsValue (unsignedDigits value.toList)) := by
      revert value
      decide
    obtain ⟨hattached, hdigits⟩ := hmarks
    have hrange : ∀ n, Numeral value n → n < 1 ∨ 2 ^ 32 - 1 < n := by
      intro n hnumeral
      obtain ⟨-, hall, rfl⟩ := numeral_iff.1 hnumeral
      exact hdigits hall
    have hgives : Gives ["-s" ++ value, "-f", "t.pf2"] .size value :=
      Or.inl ⟨_, List.mem_cons_self, Or.inr (Or.inr ⟨rfl, hattached⟩)⟩
    obtain ⟨hnone, -, htree⟩ := (size_is_never_refused ["-s" ++ value, "-f", "t.pf2"]).2.2 value hgives hrange
    exact ⟨hnone, fun m => htree {} m⟩

end CommandLine

end GlyphImage
