/-
What a run of a job does to a machine, whatever faults the machine's disk has. Up to the image nothing but warnings is
noted, and what comes out is a function of the font file (`Job.run_hostOn`, `Job.renderFile`): an error that has nothing
to do with writing, or a canvas that leaves a margin around a bitmap of the size that the metrics tell. With what storing
a canvas can do this leaves three outcomes (`Job.run_cases`), and `run_changes_only_the_image` reads them off: a run that
fails leaves the tree and the output alone, apart from what a failed write leaves at the image's own place, and a run that
succeeds leaves the image and the confirmation.
-/
import GlyphImage.Program
import GlyphImage.Proofs.Font.Open
import GlyphImage.Proofs.Host.Machine
import GlyphImage.Proofs.TrueType.Glyphs

namespace GlyphImage

/-! ## Drawing -/

/-- an error from before anything is written -/
def RenderError.BeforeWriting (e : RenderError) : Prop := ∀ cause, e ≠ .write cause

/-- the canvas has the size that the metrics tell, and a margin on every side -/
def RenderedGlyph.Framed (g : RenderedGlyph) : Prop :=
  g.canvas.width = g.metrics.width + 2 * Canvas.margin ∧ g.canvas.height = g.metrics.height + 2 * Canvas.margin

/-- **The bitmap has the size that the metrics tell**, for fonts of both kinds. -/
theorem OpenFace.dims_of_rasterize {face : OpenFace} {index : GlyphIndex} {glyph : RasterGlyph}
    (h : face.rasterize index = .ok glyph) :
    glyph.bitmap.width = glyph.metrics.width ∧ glyph.bitmap.height = glyph.metrics.height := by
  cases face with
  | pff2 font =>
    obtain ⟨g, -, -, hcoverage, hmetrics⟩ := Pff2.Font.rasterize_eq_ok_iff.1 h
    obtain ⟨-, hbitmap⟩ := Pff2.Glyph.coverage_eq_ok_iff.1 hcoverage
    rw [hmetrics, hbitmap]
    exact ⟨rfl, rfl⟩
  | trueType face =>
    obtain ⟨id, -, hglyph⟩ := TrueType.Face.rasterize_eq_ok_iff.1 h
    obtain ⟨hbitmap, hmetrics⟩ := TrueType.Raster.toGlyph_eq_ok_iff.1 hglyph
    obtain ⟨hwidth, hheight, -⟩ := Coverage.eq_of_ofBuffer? hbitmap
    rw [hmetrics]
    exact ⟨hwidth, hheight⟩

/-- what a face draws is framed, and a failure has nothing to do with writing -/
theorem OpenFace.draw_spec (face : OpenFace) (character : Char) :
    (∃ e, face.draw character = .error e ∧ e.BeforeWriting) ∨ ∃ g, face.draw character = .ok g ∧ g.Framed := by
  unfold draw
  cases face.glyphIndex character with
  | none => exact Or.inl ⟨_, rfl, by simp [RenderError.BeforeWriting]⟩
  | some index =>
    cases hraster : face.rasterize index with
    | error cause =>
      refine Or.inl ⟨.ofRasterize character cause, by simp only [RenderedGlyph.ofRaster, hraster], ?_⟩
      cases cause <;> simp [RenderError.BeforeWriting, RenderError.ofRasterize]
    | ok glyph =>
      simp only [RenderedGlyph.ofRaster, hraster]
      cases hframing : Canvas.framing glyph.bitmap with
      | error cause => exact Or.inl ⟨_, rfl, by simp [RenderError.BeforeWriting]⟩
      | ok canvas =>
        obtain ⟨hwidth, hheight, -⟩ := Canvas.framing_spec hframing
        obtain ⟨hmetricsWidth, hmetricsHeight⟩ := dims_of_rasterize hraster
        exact Or.inr ⟨_, rfl, hmetricsWidth ▸ hwidth, hmetricsHeight ▸ hheight⟩

/-! ## Runs -/

section

variable (job : Job) (faults : Machine.Faults) (m : Machine)

/-- what a job makes of the contents of its font file, and what is noted on the way -/
def Job.renderFile (file : List UInt8) : Except RenderError RenderedGlyph × List Pff2.Warning :=
  match openFont file with
  | (.error e, warnings) => (.error (.loadFont job.fontPath e), warnings)
  | (.ok face, warnings) =>
    ((Session.asFace.render job { face }).1, warnings ++ (Session.asFace.render job { face }).2.warnings)

theorem Job.renderFile_spec (file : List UInt8) :
    (∃ e, (job.renderFile file).1 = .error e ∧ e.BeforeWriting) ∨
      ∃ g, (job.renderFile file).1 = .ok g ∧ g.Framed := by
  unfold renderFile
  cases openFont file with
  | mk opened warnings =>
    cases opened with
    | error e => exact Or.inl ⟨_, rfl, by simp [RenderError.BeforeWriting]⟩
    | ok face =>
      simp only [Session.render_eq]
      split_ifs
      · exact Or.inl ⟨_, rfl, by simp [RenderError.BeforeWriting]⟩
      · exact (face.resized job.sizePx).draw_spec job.character

/-- **A run in its order**: the font file is read, the character rendered, and only then the image stored. -/
theorem Job.run_hostOn :
    job.run (Machine.hostOn faults) m =
      match ((Machine.hostOn faults).readFile job.fontPath m).1 with
      | .error e => (.error (.loadFont job.fontPath (.io e)), m)
      | .ok file =>
        match (job.renderFile file).1 with
        | .error e => (.error e, { m with warnings := m.warnings ++ (job.renderFile file).2 })
        | .ok rendered =>
          match rendered.canvas.save (Machine.hostOn faults) job.output
              { m with warnings := m.warnings ++ (job.renderFile file).2 } with
          | (.error e, m') => (.error (.write e), m')
          | (.ok (), m') => (.ok rendered, m') := by
  obtain ⟨result, hread⟩ := Machine.readFile_hostOn faults job.fontPath m
  unfold run
  simp only [bind, StateT.bind, hread]
  cases result with
  | error e => rfl
  | ok file =>
    unfold renderFile
    cases hopened : openFont file with
    | mk opened warnings =>
      simp only [hopened, bind, StateT.bind, Machine.warnAll_hostOn]
      cases opened with
      | error e => rfl
      | ok face =>
        unfold OpenFace.render
        cases hrendered : Session.asFace.render job { face } with
        | mk result session =>
          simp only [hrendered, bind, StateT.bind, Machine.warnAll_hostOn, List.append_assoc]
          cases result with
          | error e => rfl
          | ok rendered =>
            simp only [pure, StateT.pure, StateT.bind]
            cases rendered.canvas.save (Machine.hostOn faults) job.output
                { m with warnings := m.warnings ++ (warnings ++ session.warnings) } with
            | mk saved m' =>
              cases saved with
              | error e => rfl
              | ok done => rfl

/-- **What a run can do**: fail and change nothing; fail in a write, when only the image's own place can have changed; or
store the file of a framed canvas there and confirm it. -/
theorem Job.run_cases :
    ∃ noted,
      (∃ e, (∀ path cause, e ≠ .write (.writeFile path cause)) ∧
        job.run (Machine.hostOn faults) m = (.error e, { m with warnings := noted })) ∨
      ∃ place, m.tree.writeTarget m.workDir job.output = .ok place ∧ ∃ tree : FileTree,
        (∀ other, other ≠ place → tree.find? other = m.tree.find? other) ∧
        ((∃ cause, job.run (Machine.hostOn faults) m =
            (.error (.write (.writeFile job.output cause)), { m with tree, warnings := noted })) ∨
          ∃ rendered : RenderedGlyph, rendered.Framed ∧
            (∀ other, tree.find? other = (m.tree.filled place (Pixmap.encode rendered.canvas)).find? other) ∧
            job.run (Machine.hostOn faults) m =
              (.ok rendered, { m with tree, output := m.output ++ savedLine job.output, warnings := noted })) := by
  rw [run_hostOn]
  cases ((Machine.hostOn faults).readFile job.fontPath m).1 with
  | error e => exact ⟨m.warnings, Or.inl ⟨_, by simp, rfl⟩⟩
  | ok file =>
    refine ⟨m.warnings ++ (job.renderFile file).2, ?_⟩
    rcases job.renderFile_spec file with ⟨e, hrendered, he⟩ | ⟨rendered, hrendered, hframed⟩
    · exact Or.inl ⟨e, fun path cause => he _, by simp only [hrendered]⟩
    · simp only [hrendered]
      rcases rendered.canvas.save_spec faults { m with warnings := m.warnings ++ (job.renderFile file).2 } job.output with
        ⟨cause, hopen, -⟩ | ⟨place, hplace, tree, hothers, hsaved⟩
      · exact Or.inl ⟨.write (.openFile job.output cause), by simp, by simp only [hopen]⟩
      · refine Or.inr ⟨place, hplace, tree, hothers, ?_⟩
        rcases hsaved with ⟨cause, hwrite, -⟩ | ⟨hdone, hfind⟩
        · exact Or.inl ⟨cause, by simp only [hwrite]⟩
        · exact Or.inr ⟨rendered, hframed, hfind, by simp only [hdone]⟩

variable {job faults m}

/-- **Every place but the image's own** is after a run what it was before. -/
theorem Job.find?_run {other : Location} (h : m.tree.writeTarget m.workDir job.output ≠ .ok other) :
    (job.run (Machine.hostOn faults) m).2.tree.find? other = m.tree.find? other := by
  obtain ⟨noted, ⟨_, -, hrun⟩ | ⟨place, hplace, tree, hothers, hrun⟩⟩ := job.run_cases faults m
  · rw [hrun]
  · have hother : other ≠ place := fun heq => h (heq ▸ hplace)
    rcases hrun with ⟨_, hrun⟩ | ⟨_, -, -, hrun⟩ <;>
    · rw [hrun]
      exact hothers other hother

theorem append_savedLine (text path : String) : text ++ savedLine path = text ++ "Saved output to " ++ path ++ "\n" := by
  unfold savedLine
  rw [← String.append_assoc, ← String.append_assoc]

/-- **A run that fails** prints nothing, and only a failed write leaves anything behind, at the image's own place. -/
theorem Job.run_error {e : RenderError} {m' : Machine} (h : job.run (Machine.hostOn faults) m = (.error e, m')) :
    m'.output = m.output ∧ ((∀ path cause, e ≠ .write (.writeFile path cause)) → m'.tree = m.tree) ∧
      ∀ place, m.tree.writeTarget m.workDir job.output = .ok place →
        ∀ other, other ≠ place → m'.tree.find? other = m.tree.find? other := by
  obtain ⟨noted, ⟨_, -, hrun⟩ | ⟨place, hplace, tree, hothers, ⟨cause, hrun⟩ | ⟨_, -, -, hrun⟩⟩⟩ := job.run_cases faults m
  · obtain ⟨-, rfl⟩ := Prod.mk.inj (h.symm.trans hrun)
    exact ⟨rfl, fun _ => rfl, fun _ _ _ _ => rfl⟩
  · obtain ⟨he, rfl⟩ := Prod.mk.inj (h.symm.trans hrun)
    refine ⟨rfl, fun hno => absurd (Except.error.inj he) (hno _ _), fun place' hplace' => ?_⟩
    obtain rfl : place = place' := Except.ok.inj (hplace.symm.trans hplace')
    exact hothers
  · cases h.symm.trans hrun

/-- **A run that succeeds** has stored the file of a framed canvas and confirms it. -/
theorem Job.run_ok {rendered : RenderedGlyph} {m' : Machine}
    (h : job.run (Machine.hostOn faults) m = (.ok rendered, m')) :
    rendered.Framed ∧ m'.output = m.output ++ savedLine job.output ∧
      ∃ place, m.tree.writeTarget m.workDir job.output = .ok place ∧
        ∀ other, m'.tree.find? other = (m.tree.filled place (Pixmap.encode rendered.canvas)).find? other := by
  obtain ⟨noted, ⟨_, -, hrun⟩ | ⟨place, hplace, tree, -, ⟨_, hrun⟩ | ⟨stored, hframed, hfind, hrun⟩⟩⟩ :=
    job.run_cases faults m
  · cases h.symm.trans hrun
  · cases h.symm.trans hrun
  · obtain ⟨hstored, rfl⟩ := Prod.mk.inj (h.symm.trans hrun)
    obtain rfl := Except.ok.inj hstored
    exact ⟨hframed, rfl, place, hplace, hfind⟩

section

variable {file : List UInt8} {font : Pff2.Font} {warnings : List Pff2.Warning}

/-- a character that an opened bitmap font does not draw: the run fails with the same error -/
theorem Job.run_of_draw_error (hread : m.tree.read m.workDir job.fontPath = .ok file)
    (hopen : openFont file = (.ok (.pff2 font), warnings)) (hsize : job.sizePx ≠ 0) {e : RenderError}
    (hdraw : (OpenFace.pff2 font).draw job.character = .error e) :
    ∃ noted, job.run Machine.host m = (.error e, { m with warnings := noted }) := by
  have hfile : (Machine.host.readFile job.fontPath m).1 = .ok file := hread
  have hrendered : (job.renderFile file).1 = .error e := by
    simp only [renderFile, hopen, Session.render_pff2 font [] job hsize, hdraw]
  have hrun := job.run_hostOn {} m
  simp only [Machine.hostOn_faultless, hfile, hrendered] at hrun
  exact ⟨_, hrun⟩

/-- a character that an opened bitmap font draws: where there is room the run succeeds, and the image is stored -/
theorem Job.run_of_draw_ok (hread : m.tree.read m.workDir job.fontPath = .ok file)
    (hopen : openFont file = (.ok (.pff2 font), warnings)) (hsize : job.sizePx ≠ 0) {rendered : RenderedGlyph}
    (hdraw : (OpenFace.pff2 font).draw job.character = .ok rendered) {place : Location}
    (hplace : m.tree.writeTarget m.workDir job.output = .ok place)
    (hroom : m.tree.find? place ≠ some (.device .full)) :
    ∃ m', job.run Machine.host m = (.ok rendered, m') ∧ m'.output = m.output ++ savedLine job.output ∧
      ∀ other, m'.tree.find? other = (m.tree.filled place (Pixmap.encode rendered.canvas)).find? other := by
  have hfile : (Machine.host.readFile job.fontPath m).1 = .ok file := hread
  have hrendered : (job.renderFile file).1 = .ok rendered := by
    simp only [renderFile, hopen, Session.render_pff2 font [] job hsize, hdraw]
  have hrun := job.run_hostOn {} m
  obtain ⟨tree, hsave, hfind⟩ := Canvas.save_machine
    (m := { m with warnings := m.warnings ++ (job.renderFile file).2 }) hplace hroom rendered.canvas
  simp only [Machine.hostOn_faultless, hfile, hrendered, hsave] at hrun
  exact ⟨_, hrun, rfl, hfind⟩

end

end

/-! ## Programs -/

/-- the program runs the job that its arguments ask for, and then reports or complains -/
theorem Program.run_hostOn (faults : Machine.Faults) (m : Machine) {arguments : List String} {job : Job}
    (h : CommandLine.parse arguments = .ok job) :
    Program.run (Machine.hostOn faults) arguments m =
      match job.run (Machine.hostOn faults) m with
      | (.error e, m') => (1, { m' with errorOutput := m'.errorOutput ++ failureText e })
      | (.ok rendered, m') => (0, { m' with output := m'.output ++ rendered.report }) := by
  unfold Program.run
  simp only [h, bind, StateT.bind]
  cases job.run (Machine.hostOn faults) m with
  | mk result m' =>
    cases result with
    | error e => rfl
    | ok rendered => rfl

/-- **A run changes nothing but the image.** A run that fails prints nothing, and changes at most the place that its
output path means; unless a write failed it changes no place at all. A run that succeeds changes that place only, where
the file of its canvas stands afterwards if no device does; it prints the confirmation, and the canvas is by ten pixels
wider and higher than the metrics say. The program ends with 0 just for these, and prints the report after the
confirmation; otherwise it ends with 1 and prints nothing. -/
theorem run_changes_only_the_image (faults : Machine.Faults) (m : Machine) (job : Job) :
    ∃ result m', job.run (Machine.hostOn faults) m = (result, m') ∧
      (∀ e, result = .error e →
        m'.output = m.output ∧
        ((∀ path cause, e ≠ .write (.writeFile path cause)) → m'.tree = m.tree) ∧
        ∀ place, m.tree.writeTarget m.workDir job.output = .ok place →
          ∀ other, other ≠ place → m'.tree.find? other = m.tree.find? other) ∧
      (∀ rendered, result = .ok rendered →
        m'.output = m.output ++ "Saved output to " ++ job.output ++ "\n" ∧
        rendered.canvas.width = rendered.metrics.width + 10 ∧ rendered.canvas.height = rendered.metrics.height + 10 ∧
        ∃ place, m.tree.writeTarget m.workDir job.output = .ok place ∧
          ((∀ device, m.tree.find? place ≠ some (.device device)) →
            m'.tree.find? place = some (.file (Pixmap.encode rendered.canvas))) ∧
          ∀ other, other ≠ place → m'.tree.find? other = m.tree.find? other) ∧
      ∀ arguments, CommandLine.parse arguments = .ok job →
        ∃ code final, Program.run (Machine.hostOn faults) arguments m = (code, final) ∧ final.tree = m'.tree ∧
          (code = 0 ↔ ∃ rendered, result = .ok rendered) ∧
          (∀ rendered, result = .ok rendered → final.output = m'.output ++ rendered.report) ∧
          ∀ e, result = .error e → code = 1 ∧ final.output = m.output := by
  cases hrun : job.run (Machine.hostOn faults) m with
  | mk result m' =>
    refine ⟨result, m', rfl, ?_, ?_, fun arguments harguments => ?_⟩
    · rintro e rfl
      exact Job.run_error hrun
    · rintro rendered rfl
      obtain ⟨⟨hwidth, hheight⟩, houtput, place, hplace, hfind⟩ := Job.run_ok hrun
      refine ⟨?_, hwidth, hheight, place, hplace, fun hdevice => ?_, fun other hother => ?_⟩
      · exact houtput.trans (append_savedLine m.output job.output)
      · rw [hfind, FileTree.find?_filled_self (FileTree.ne_nil_of_writeTarget hplace) hdevice]
      · rw [hfind, FileTree.find?_filled_of_ne hother]
    · have hprogram := Program.run_hostOn faults m harguments
      rw [hrun] at hprogram
      cases result with
      | error e =>
        refine ⟨1, _, hprogram, rfl, by simp, fun _ h => (by cases h), ?_⟩
        rintro _ -
        exact ⟨rfl, (Job.run_error hrun).1⟩
      | ok rendered =>
        refine ⟨0, _, hprogram, rfl, by simp, ?_, fun _ h => (by cases h)⟩
        rintro _ ⟨⟩
        rfl

/-- a font file with one glyph, whose image is asked for in the place of the font file itself: the image takes its place.
For a character that the font misses it stays. -/
theorem run_changes_only_the_image_in_place :
    let font : Pff2.Font := ⟨⟨"T", "", 12, "", 8, 8, 6, 2⟩, #[⟨65, 3, 2, 1, -1, 4, #[0xB8]⟩]⟩
    let file := (Pff2.Layout.ofGlyphs (Pff2.propertySections font.toProperties) font.glyphs.toList).bytes
    let m : Machine := { tree := ⟨[(["t.pf2"], .file file)]⟩, workDir := [] }
    (∃ (rendered : RenderedGlyph) (final : Machine),
      Program.run Machine.host ["-f", "t.pf2", "-o", "t.pf2"] m = (0, final) ∧
      final.output = "Saved output to t.pf2\n" ++ rendered.report ∧
      final.tree.find? ["t.pf2"] = some (.file (Pixmap.encode rendered.canvas))) ∧
    ∃ final, Program.run Machine.host ["-f", "t.pf2", "-c", "B", "-o", "t.pf2"] m = (1, final) ∧
      final.output = "" ∧ final.tree = m.tree := by
  intro font file m
  have hrising : font.Rising := List.pairwise_singleton _ _
  have hexact : ∀ g ∈ font.glyphs.toList, g.Exact := by decide
  have hopen : openFont file = (.ok (.pff2 font), []) :=
    openFont_ofGlyphs (by decide) hrising hexact (by decide +kernel)
  have hread : m.tree.read m.workDir "t.pf2" = .ok file := by cbv
  have hplace : m.tree.writeTarget m.workDir "t.pf2" = .ok ["t.pf2"] := by cbv
  have hdevice : ∀ device, m.tree.find? ["t.pf2"] ≠ some (.device device) := by
    intro device hdevice
    cases hdevice
  constructor
  · let job : Job := ⟨"t.pf2", 'A', 48, "t.pf2"⟩
    have hparse : CommandLine.parse ["-f", "t.pf2", "-o", "t.pf2"] = .ok job := by cbv
    have hglyph : ⟨65, 3, 2, 1, -1, 4, #[0xB8]⟩ ∈ font.glyphs := List.mem_toArray.2 List.mem_cons_self
    have hcode : (65 : UInt32) = job.character.val := by decide
    have hdrawn : ∃ rendered, (OpenFace.pff2 font).draw job.character = .ok rendered := by
      obtain ⟨canvas, hdrawn, -⟩ := Pff2.Font.exists_drawn hrising hglyph (by decide) hcode
      exact ⟨_, hdrawn⟩
    obtain ⟨rendered, hdrawn⟩ := hdrawn
    have hrun : ∃ m', job.run Machine.host m = (.ok rendered, m') ∧ _ :=
      Job.run_of_draw_ok hread hopen (by decide) hdrawn hplace (hdevice .full)
    obtain ⟨m₁, hrun, -⟩ := hrun
    obtain ⟨result, m', hresult, -, hok, hprogram⟩ := run_changes_only_the_image {} m job
    obtain ⟨rfl, rfl⟩ := Prod.mk.inj (hrun.symm.trans hresult)
    obtain ⟨houtput, -, -, place, hplace', hfile, -⟩ := hok _ rfl
    obtain rfl : ["t.pf2"] = place := Except.ok.inj (hplace.symm.trans hplace')
    obtain ⟨code, final, hfinal, htree, hcode, hreport, -⟩ := hprogram _ hparse
    obtain rfl : code = 0 := hcode.2 ⟨_, rfl⟩
    exact ⟨_, final, hfinal, (hreport _ rfl).trans (congrArg (· ++ _) houtput), htree ▸ hfile hdevice⟩
  · let job : Job := ⟨"t.pf2", 'B', 48, "t.pf2"⟩
    have hparse : CommandLine.parse ["-f", "t.pf2", "-c", "B", "-o", "t.pf2"] = .ok job := by cbv
    have hmissing : (OpenFace.pff2 font).draw 'B' = .error (.glyphNotFound 'B') :=
      Pff2.Font.draw_eq_glyphNotFound (by decide)
    have hrun : ∃ noted, job.run Machine.host m = (.error (.glyphNotFound 'B'), { m with warnings := noted }) :=
      Job.run_of_draw_error hread hopen (by decide) hmissing
    obtain ⟨noted, hrun⟩ := hrun
    obtain ⟨result, m', hresult, herror, -, hprogram⟩ := run_changes_only_the_image {} m job
    obtain ⟨rfl, rfl⟩ := Prod.mk.inj (hrun.symm.trans hresult)
    obtain ⟨-, htree', -⟩ := herror _ rfl
    obtain ⟨code, final, hfinal, htree, -, -, hcode⟩ := hprogram _ hparse
    obtain ⟨rfl, houtput⟩ := hcode _ rfl
    exact ⟨final, hfinal, houtput, htree.trans (htree' (by simp))⟩

end GlyphImage
