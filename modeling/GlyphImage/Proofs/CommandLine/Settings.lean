/-
Settings in any order. A size is read just if it is a decimal number in range (`readSize_eq_ok_iff`). A setting that is
made concerns no other (`Settings.settle_only`), so that settings which are each given once are made in every order
(`Settings.settleAll_assignments`), and every setting that is made is allowed (`Settings.allowed_settleAll`). So a job
that was asked for has paths that are not empty and a size that is not 0 (`job_of_parse`), and
`spelled_job_is_read_in_any_order`: each of these can be asked for with its settings in any order, and what is left out
has its default.
-/
import GlyphImage.Proofs.CommandLine.Grammar
import Mathlib.Data.List.Perm.Basic

namespace GlyphImage

theorem Job.defaultOutput_ne_empty (c : Char) (n : UInt32) : defaultOutput c n ≠ "" := by
  intro hempty
  have hchars := congrArg String.toList hempty
  simp [defaultOutput] at hchars

namespace CommandLine

/-! ## Values -/

theorem readPath_of_ne_empty {text : String} (h : text ≠ "") : readPath text = .ok text := by
  rw [readPath, if_neg]
  rwa [String.isEmpty_iff]

theorem ne_empty_of_readPath {text path : String} (h : readPath text = .ok path) : path ≠ "" := by
  unfold readPath at h
  split_ifs at h with hempty
  obtain rfl := Except.ok.inj h
  exact fun heq => hempty (String.isEmpty_iff.2 heq)

theorem readCharacter_singleton (c : Char) : readCharacter (String.singleton c) = .ok c := by
  rw [readCharacter, String.toList_singleton]

theorem eq_unsignedDigits (chars : List Char) :
    chars = unsignedDigits chars ∨ chars = '+' :: unsignedDigits chars := by
  unfold unsignedDigits
  split
  · exact Or.inr rfl
  · exact Or.inl rfl

/-- digits are read as they stand: the plus sign is none of them -/
theorem unsignedDigits_of_isDigit {digits : List Char} (h : ∀ d ∈ digits, d.isDigit = true) :
    unsignedDigits digits = digits := by
  unfold unsignedDigits
  split
  · exact absurd (h '+' List.mem_cons_self) (by decide)
  · rfl

/-- the number of a text is the one that its digits spell, and there is no other -/
theorem numeral_iff {text : String} {n : Nat} :
    Numeral text n ↔ unsignedDigits text.toList ≠ [] ∧ (unsignedDigits text.toList).all Char.isDigit ∧
      digitsValue (unsignedDigits text.toList) = n := by
  constructor
  · rintro ⟨digits, htext, hsome, hall, hvalue⟩
    have hread : unsignedDigits text.toList = digits := by
      rcases htext with htext | htext
      · rw [htext, unsignedDigits_of_isDigit hall]
      · rw [htext, unsignedDigits]
    rw [hread]
    exact ⟨hsome, List.all_eq_true.2 hall, hvalue⟩
  · rintro ⟨hsome, hall, hvalue⟩
    exact ⟨_, eq_unsignedDigits text.toList, hsome, List.all_eq_true.1 hall, hvalue⟩

/-- **A size is read if and only if it is a decimal number in range**, and as that number. -/
theorem readSize_eq_ok_iff {text : String} {n : UInt32} : readSize text = .ok n ↔ Numeral text n.toNat ∧ n ≠ 0 := by
  rw [numeral_iff]
  unfold readSize
  constructor
  · intro h
    simp only at h
    split_ifs at h with hdigits
    obtain ⟨hsome, hall, hpos, hlimit⟩ := hdigits
    obtain rfl := Except.ok.inj h
    have hvalue := UInt32.toNat_ofNat_of_lt' hlimit
    refine ⟨⟨hsome, hall, hvalue.symm⟩, fun hzero => ?_⟩
    rw [hzero] at hvalue
    exact hpos.ne hvalue
  · rintro ⟨⟨hsome, hall, hvalue⟩, hn⟩
    have hpos : 0 < n.toNat := Nat.pos_of_ne_zero fun hzero => hn (UInt32.toNat_inj.1 hzero)
    simp only [hvalue]
    rw [if_pos ⟨hsome, hall, hpos, n.toNat_lt⟩, UInt32.ofNat_toNat]

theorem numeral_toString (n : Nat) : Numeral (toString n) n := by
  refine ⟨Nat.toDigits 10 n, Or.inl ?_, Nat.toDigits_ne_nil, fun d hd => ?_, Nat.ofDigitChars_ten_toDigits⟩
  · rw [Nat.toString_eq_ofList_toDigits, String.toList_ofList]
  · exact Nat.isDigit_of_mem_toDigits (by decide) (Nat.le_refl 10) hd

theorem Setting.mem_all (setting : Setting) : setting ∈ all := by
  cases setting <;> decide

namespace Settings

variable {s : Settings} {setting : Setting} {value : String}

/-! ## Settings made so far -/

/-- what is left of the settings if only some of them are made -/
def only (s : Settings) (made : List Setting) : Settings where
  fontFile := if .fontFile ∈ made then s.fontFile else none
  character := if .character ∈ made then s.character else none
  size := if .size ∈ made then s.size else none
  output := if .output ∈ made then s.output else none

theorem only_nil (s : Settings) : s.only [] = {} := by
  simp [only]

/-- settings that are not set need not be made -/
theorem only_eq_self {made : List Setting} (h : ∀ setting, s.text? setting ≠ none → setting ∈ made) :
    s.only made = s := by
  have hfont := h .fontFile
  have hcharacter := h .character
  have hsize := h .size
  have houtput := h .output
  obtain ⟨fontFile, character, size, output⟩ := s
  cases fontFile <;> cases character <;> cases size <;> cases output <;> simp_all [only, text?]

/-- **One more setting is made**, if it is not made yet and its value spells what it is to be. -/
theorem settle_only {made : List Setting} (hs : s.Allowed) (htext : s.text? setting = some value)
    (hmade : setting ∉ made) : (s.only made).settle setting value = .ok (s.only (setting :: made)) := by
  obtain ⟨hfont, hsize, houtput⟩ := hs
  cases setting with
  | fontFile =>
    have hread : readPath value = .ok value := readPath_of_ne_empty fun hempty => hfont (hempty ▸ htext)
    have hset : s.fontFile = some value := htext
    simp [settle, only, once, hmade, hread, hset, Except.map]
  | character =>
    obtain ⟨c, hset, rfl⟩ := Option.map_eq_some_iff.1 htext
    simp [settle, only, once, hmade, readCharacter_singleton, hset, Except.map]
  | size =>
    obtain ⟨n, hset, hspelled⟩ := Option.map_eq_some_iff.1 htext
    have hread : readSize value = .ok n :=
      readSize_eq_ok_iff.2 ⟨hspelled ▸ numeral_toString n.toNat, fun hzero => hsize (hzero ▸ hset)⟩
    simp [settle, only, once, hmade, hread, hset, Except.map]
  | output =>
    have hread : readPath value = .ok value := readPath_of_ne_empty fun hempty => houtput (hempty ▸ htext)
    have hset : s.output = some value := htext
    simp [settle, only, once, hmade, hread, hset, Except.map]

/-- settings are made one after another, if none is made twice and their values spell what they are to be -/
theorem settleAll_only {made : List Setting} {assignments : List Assignment} (hs : s.Allowed)
    (htext : ∀ a ∈ assignments, s.text? a.1 = some a.2) (hnodup : (assignments.map Prod.fst).Nodup)
    (hmade : ∀ a ∈ assignments, a.1 ∉ made) :
    (s.only made).settleAll assignments = .ok (s.only ((assignments.map Prod.fst).reverse ++ made)) := by
  induction assignments generalizing made with
  | nil => rfl
  | cons a rest ih =>
    rw [List.map_cons, List.nodup_cons] at hnodup
    obtain ⟨hfirst, hnodup⟩ := hnodup
    have hstep := settle_only hs (htext a List.mem_cons_self) (hmade a List.mem_cons_self)
    rw [settleAll_cons hstep]
    have hfresh : ∀ b ∈ rest, b.1 ∉ a.1 :: made := by
      intro b hb hmem
      rcases List.mem_cons.1 hmem with heq | hmem
      · exact hfirst (heq ▸ List.mem_map_of_mem hb)
      · exact hmade b (List.mem_cons_of_mem a hb) hmem
    have hlater := ih (fun b hb => htext b (List.mem_cons_of_mem a hb)) hnodup hfresh
    simpa using hlater

/-! ## All settings -/

theorem mem_assignments_iff {a : Assignment} : a ∈ s.assignments ↔ s.text? a.1 = some a.2 := by
  rw [assignments, List.mem_filterMap]
  constructor
  · rintro ⟨setting, -, h⟩
    obtain ⟨value, hvalue, rfl⟩ := Option.map_eq_some_iff.1 h
    exact hvalue
  · intro h
    exact ⟨a.1, a.1.mem_all, by rw [h, Option.map_some]⟩

/-- no setting has two values -/
theorem nodup_assignments (s : Settings) : (s.assignments.map Prod.fst).Nodup := by
  have hall : Setting.all.Nodup := by decide
  refine List.pairwise_map.2 (List.pairwise_filterMap.2 (hall.imp fun {setting setting'} hne a ha a' ha' => ?_))
  obtain ⟨_, -, rfl⟩ := Option.map_eq_some_iff.1 ha
  obtain ⟨_, -, rfl⟩ := Option.map_eq_some_iff.1 ha'
  exact hne

/-- **Allowed settings are made from their values in every order.** -/
theorem settleAll_assignments {assignments : List Assignment} (hs : s.Allowed)
    (horder : assignments.Perm s.assignments) : settleAll {} assignments = .ok s := by
  have htext : ∀ a ∈ assignments, s.text? a.1 = some a.2 := fun a ha => mem_assignments_iff.1 (horder.mem_iff.1 ha)
  have hnodup : (assignments.map Prod.fst).Nodup := (horder.map Prod.fst).nodup_iff.2 s.nodup_assignments
  have hmade : (s.only []).settleAll assignments = .ok (s.only ((assignments.map Prod.fst).reverse ++ [])) :=
    settleAll_only hs htext hnodup fun _ _ => List.not_mem_nil
  rw [only_nil, List.append_nil] at hmade
  rw [hmade, only_eq_self]
  intro setting hset
  obtain ⟨value, hvalue⟩ := Option.ne_none_iff_exists'.1 hset
  have hmem : (setting, value) ∈ assignments := horder.mem_iff.2 (mem_assignments_iff.2 hvalue)
  exact List.mem_reverse.2 (List.mem_map_of_mem hmem)

/-! ## Allowed settings -/

theorem exists_of_once {α : Type} {before : Option α} {read : Except Stop α} {after : Option α}
    (h : once before read = .ok after) : ∃ a, read = .ok a ∧ before = none ∧ after = some a := by
  unfold once at h
  split_ifs at h with hbefore
  obtain ⟨a, hread, rfl⟩ := map_eq_ok h
  exact ⟨a, hread, Option.not_isSome_iff_eq_none.1 hbefore, rfl⟩

/-- **One more setting stays allowed**, since a value that is not is refused. -/
theorem allowed_settle {s' : Settings} (hs : s.Allowed) (h : s.settle setting value = .ok s') : s'.Allowed := by
  obtain ⟨hfont, hsize, houtput⟩ := hs
  cases setting with
  | fontFile =>
    obtain ⟨after, honce, rfl⟩ := map_eq_ok h
    obtain ⟨path, hread, -, rfl⟩ := exists_of_once honce
    exact ⟨fun hempty => ne_empty_of_readPath hread (Option.some.inj hempty), hsize, houtput⟩
  | character =>
    obtain ⟨after, -, rfl⟩ := map_eq_ok h
    exact ⟨hfont, hsize, houtput⟩
  | size =>
    obtain ⟨after, honce, rfl⟩ := map_eq_ok h
    obtain ⟨n, hread, -, rfl⟩ := exists_of_once honce
    exact ⟨hfont, fun hzero => (readSize_eq_ok_iff.1 hread).2 (Option.some.inj hzero), houtput⟩
  | output =>
    obtain ⟨after, honce, rfl⟩ := map_eq_ok h
    obtain ⟨path, hread, -, rfl⟩ := exists_of_once honce
    exact ⟨hfont, hsize, fun hempty => ne_empty_of_readPath hread (Option.some.inj hempty)⟩

theorem allowed_settleAll {s' : Settings} {assignments : List Assignment} (hs : s.Allowed)
    (h : s.settleAll assignments = .ok s') : s'.Allowed := by
  induction assignments generalizing s with
  | nil =>
    obtain rfl := Except.ok.inj h
    exact hs
  | cons a rest ih =>
    obtain ⟨made, hmade, hlater⟩ := exists_of_bind_eq_ok h
    exact ih (allowed_settle hs hmade) hlater

/-- the job of allowed settings has paths that are not empty, and a size -/
theorem job_of_allowed {job : Job} (hs : s.Allowed) (h : s.job = .ok job) :
    job.fontPath ≠ "" ∧ job.sizePx ≠ 0 ∧ job.output ≠ "" := by
  obtain ⟨fontFile, character, size, output⟩ := s
  obtain ⟨hfont, hsize, houtput⟩ := hs
  cases fontFile with
  | none => cases h
  | some fontFile =>
    obtain rfl := Except.ok.inj h
    have hpath : fontFile ≠ "" := fun hempty => hfont (congrArg some hempty)
    have hpositive : size.getD defaultSize ≠ 0 := by
      cases size with
      | none => decide
      | some n => exact fun hzero => hsize (congrArg some hzero)
    cases output with
    | none => exact ⟨hpath, hpositive, Job.defaultOutput_ne_empty _ _⟩
    | some path => exact ⟨hpath, hpositive, fun hempty => houtput (congrArg some hempty)⟩

end Settings

/-! ## Jobs -/

theorem job_of_parse {arguments : List String} {job : Job} (h : parse arguments = .ok job) :
    job.fontPath ≠ "" ∧ job.sizePx ≠ 0 ∧ job.output ≠ "" := by
  obtain ⟨assignments, settings, -, hsettled, hjob⟩ := parse_eq_ok_iff.1 h
  exact Settings.job_of_allowed (Settings.allowed_settleAll (by decide) hsettled) hjob

/-- the arguments that hold the values, in their order -/
theorem assigns_spelled (assignments : List Assignment) :
    Assigns (assignments.map fun a => a.1.spelled a.2) assignments := by
  induction assignments with
  | nil => exact .nothing
  | cons a rest ih => exact .attached (Or.inl rfl) ih

/-- allowed settings are read from the arguments that hold their values, in every order -/
theorem parse_spelled {s : Settings} (hs : s.Allowed) {arguments : List String}
    (horder : arguments.Perm (s.assignments.map fun a => a.1.spelled a.2)) : parse arguments = s.job := by
  -- the values come in the order of the arguments
  have hvalues := congrFun₂ (List.eq_map_comp_perm fun a : Assignment => a.1.spelled a.2) arguments s.assignments
  obtain ⟨assignments, rfl, hperm⟩ := hvalues.mpr horder
  have hwords : Reading.words {} (assignments.map fun a => a.1.spelled a.2) = .ok s :=
    Reading.words_eq_ok_iff.2 ⟨assignments, assigns_spelled assignments, Settings.settleAll_assignments hs hperm⟩
  rw [parse, hwords]

theorem spelled_assignments (fontFile : String) (character : Option Char) (size : Option UInt32)
    (output : Option String) :
    (Settings.assignments ⟨some fontFile, character, size, output⟩).map (fun a => a.1.spelled a.2) =
      ["--font-file=" ++ fontFile] ++ character.toList.map (fun c => "--char=" ++ String.singleton c) ++
        size.toList.map (fun n => "--size=" ++ toString n.toNat) ++ output.toList.map (fun path => "--output=" ++ path) := by
  cases character <;> cases size <;> cases output <;> rfl

/-- **Every job can be asked for, in any order.** The font file, the character, the size and the output may each be given
behind the name of their setting and an equals sign, whatever other marks the values contain, and in any order. What is
read is the job of just these values. Without an output, or without a character or a size, it is the job with the output
that is named after the others, the character `A`, or the size 48. -/
theorem spelled_job_is_read_in_any_order (fontFile : String) (character : Option Char) (size : Option UInt32)
    (output : Option String) (hfont : fontFile ≠ "") (hsize : size ≠ some 0) (houtput : output ≠ some "")
    (arguments : List String)
    (horder : arguments.Perm (["--font-file=" ++ fontFile] ++
      character.toList.map (fun c => "--char=" ++ String.singleton c) ++
      size.toList.map (fun n => "--size=" ++ toString n.toNat) ++
      output.toList.map (fun path => "--output=" ++ path))) :
    parse arguments = .ok
      { fontPath := fontFile, character := character.getD 'A', sizePx := size.getD 48,
        output := output.getD (Job.new fontFile (character.getD 'A') (size.getD 48)).output } := by
  have hallowed : Settings.Allowed ⟨some fontFile, character, size, output⟩ :=
    ⟨fun hempty => hfont (Option.some.inj hempty), hsize, houtput⟩
  rw [← spelled_assignments] at horder
  rw [parse_spelled hallowed horder]
  cases output <;> rfl

/-- values that look like options, that start with the sign in front of them or hold blanks, in another order; and the
largest size without a character and an output -/
theorem spelled_job_is_read_in_any_order_marks :
    parse ["--output==-o 1", "--size=1", "--char==", "--font-file=--size=2 -f"] =
      .ok ⟨"--size=2 -f", '=', 1, "=-o 1"⟩ ∧
    parse ["--size=4294967295", "--font-file=-"] = .ok ⟨"-", 'A', 4294967295, "glyph_A_4294967295px.ppm"⟩ := by
  constructor
  · exact spelled_job_is_read_in_any_order "--size=2 -f" (some '=') (some 1) (some "=-o 1") (by decide) (by decide)
      (by decide) _ (by decide +kernel)
  · exact spelled_job_is_read_in_any_order "-" none (some 4294967295) none (by decide) (by decide)
      (by decide) _ (by decide +kernel)

end CommandLine

end GlyphImage
