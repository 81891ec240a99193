/-
The image file that a job has without a word about it. Its name can be read back: the character stands at a fixed place
in it, and the size between two fixed texts. It is a name that a directory can have, unless the character is zero, which
no file has in its name, or the slash. With a slash the text is a path into another directory, which the job does not
make (`Job.path_defaultOutput`). Even so no two jobs mean the same place (`Job.defaultNames_injective`).
`default_images_keep_apart` puts this together.
-/
import GlyphImage.Proofs.Effects
import GlyphImage.Proofs.Host.Paths
import GlyphImage.Proofs.Text.Fixed

namespace GlyphImage

namespace Job

variable {c c' : Char} {s s' : UInt32}

/-! ## The text -/

/-- what stands behind the character -/
def sizeEnding (sizePx : UInt32) : String := s!"_{sizePx.toNat}px.ppm"

theorem defaultOutput_eq (c : Char) (s : UInt32) :
    defaultOutput c s = "glyph_" ++ String.singleton c ++ sizeEnding s := by
  simp only [defaultOutput, sizeEnding, String.append_assoc]
  rfl

theorem toList_sizeEnding (s : UInt32) :
    (sizeEnding s).toList = '_' :: (Nat.toDigits 10 s.toNat ++ "px.ppm".toList) := by
  have htext : sizeEnding s = "_" ++ toString s.toNat ++ "px.ppm" := rfl
  simp only [htext, String.toList_append, Nat.toString_eq_ofList_toDigits, String.toList_ofList, List.append_assoc]
  rfl

theorem toList_defaultOutput (c : Char) (s : UInt32) :
    (defaultOutput c s).toList = "glyph_".toList ++ c :: (sizeEnding s).toList := by
  rw [defaultOutput_eq, String.toList_append, String.toList_append, String.toList_singleton, List.append_assoc]
  rfl

theorem sizeEnding_injective (h : sizeEnding s = sizeEnding s') : s = s' := by
  have hchars := congrArg String.toList h
  rw [toList_sizeEnding, toList_sizeEnding] at hchars
  have hdigits := List.append_cancel_right (List.cons.inj hchars).2
  exact UInt32.toNat_inj.1 (Fixed.toDigits_injective hdigits)

/-- the character and the size can be read back -/
theorem defaultOutput_injective (h : defaultOutput c s = defaultOutput c' s') : c = c' ∧ s = s' := by
  have hchars := congrArg String.toList h
  rw [toList_defaultOutput, toList_defaultOutput] at hchars
  obtain ⟨hcharacter, hending⟩ := List.cons.inj (List.append_cancel_left hchars)
  exact ⟨hcharacter, sizeEnding_injective (String.toList_inj.1 hending)⟩

theorem mem_sizeEnding {mark : Char} (h : mark ∈ (sizeEnding s).toList) :
    mark = '_' ∨ mark.isDigit = true ∨ mark ∈ "px.ppm".toList := by
  rw [toList_sizeEnding, List.mem_cons, List.mem_append] at h
  exact h.imp_right (Or.imp_left (Nat.isDigit_of_mem_toDigits (by decide) (Nat.le_refl 10)))

/-- a mark that is in none of the fixed parts is there just if it is the character -/
theorem mem_defaultOutput_iff {mark : Char} (hfront : mark ∉ "glyph_".toList) (hending : mark ∉ (sizeEnding s).toList) :
    mark ∈ (defaultOutput c s).toList ↔ mark = c := by
  rw [toList_defaultOutput, List.mem_append, List.mem_cons]
  simp only [hfront, hending, false_or, or_false]

theorem length_sizeEnding_le (s : UInt32) : (sizeEnding s).toList.length ≤ 17 := by
  have hdigits : (Nat.toDigits 10 s.toNat).length ≤ 10 :=
    (Nat.length_toDigits_le_iff (by decide) (by decide)).2 (s.toNat_lt.trans (by decide))
  have hfixed : "px.ppm".toList.length = 6 := rfl
  rw [toList_sizeEnding, List.length_cons, List.length_append]
  omega

/-! ## The path -/

theorem slash_not_mem_sizeEnding (s : UInt32) : '/' ∉ (sizeEnding s).toList := fun h =>
  absurd (mem_sizeEnding h) (by decide)

theorem nul_not_mem_sizeEnding (s : UInt32) : '\x00' ∉ (sizeEnding s).toList := fun h =>
  absurd (mem_sizeEnding h) (by decide)

theorem slash_mem_defaultOutput_iff : '/' ∈ (defaultOutput c s).toList ↔ '/' = c :=
  mem_defaultOutput_iff (by decide) (slash_not_mem_sizeEnding s)

theorem nul_mem_defaultOutput_iff : '\x00' ∈ (defaultOutput c s).toList ↔ '\x00' = c :=
  mem_defaultOutput_iff (by decide) (nul_not_mem_sizeEnding s)

theorem plainName_front : FileTree.PlainName "glyph_" :=
  .of_chars rfl (by decide) (by decide) (by decide) (by decide)

theorem plainName_sizeEnding (s : UInt32) : FileTree.PlainName (sizeEnding s) := by
  have hlength := length_sizeEnding_le s
  rw [toList_sizeEnding, List.length_cons] at hlength
  exact .of_chars (toList_sizeEnding s) (by decide) (slash_not_mem_sizeEnding s) (nul_not_mem_sizeEnding s) (by omega)

theorem plainName_defaultOutput (hslash : c ≠ '/') (hnul : c ≠ '\x00') : FileTree.PlainName (defaultOutput c s) := by
  have hlength := length_sizeEnding_le s
  have hchars : (defaultOutput c s).toList = 'g' :: ("lyph_".toList ++ c :: (sizeEnding s).toList) :=
    toList_defaultOutput c s
  refine .of_chars hchars (by decide) ?_ ?_ ?_
  · exact fun h => hslash (slash_mem_defaultOutput_iff.1 h).symm
  · exact fun h => hnul (nul_mem_defaultOutput_iff.1 h).symm
  · have hfixed : "lyph_".toList.length = 5 := rfl
    rw [List.length_append, List.length_cons]
    omega

/-- the names in the path of the image file -/
def defaultNames (c : Char) (s : UInt32) : List String :=
  if c = '/' then ["glyph_", sizeEnding s] else [defaultOutput c s]

theorem path_defaultOutput (c : Char) (s : UInt32) :
    FileTree.Path.ofString (defaultOutput c s) = ⟨false, defaultNames c s, false⟩ := by
  rw [defaultNames]
  split_ifs with hc
  · subst hc
    rw [defaultOutput_eq]
    exact FileTree.Path.ofString_below plainName_front.ne_empty plainName_front.slash_not_mem
      (plainName_sizeEnding s).ne_empty (plainName_sizeEnding s).slash_not_mem
  · refine FileTree.Path.ofString_name ?_ fun h => hc (slash_mem_defaultOutput_iff.1 h).symm
    intro hempty
    have hchars := toList_defaultOutput c s
    rw [hempty] at hchars
    cases hchars

/-- **Different characters or sizes have paths of different names.** -/
theorem defaultNames_injective (h : defaultNames c s = defaultNames c' s') : c = c' ∧ s = s' := by
  simp only [defaultNames] at h
  split_ifs at h with hc hc' hc'
  · exact ⟨hc.trans hc'.symm, sizeEnding_injective (List.cons.inj (List.cons.inj h).2).1⟩
  · cases (List.cons.inj h).2
  · cases (List.cons.inj h).2
  · exact defaultOutput_injective (List.cons.inj h).1

/-! ## The place -/

variable {t t' : FileTree} {workDir place : Location}

/-- **The place of the image file** has the names of its path; one of them is that of a directory if the character is the
slash. -/
theorem writeTarget_defaultOutput (hnul : c ≠ '\x00') :
    t.writeTarget workDir (defaultOutput c s) = .ok place ↔
      (c = '/' → t.find? (workDir ++ ["glyph_"]) = some .directory) ∧ place = workDir ++ defaultNames c s ∧
        t.find? place ≠ some .directory := by
  by_cases hc : c = '/'
  · subst hc
    rw [defaultOutput_eq, defaultNames, if_pos rfl]
    refine (FileTree.writeTarget_below plainName_front (plainName_sizeEnding s)).trans (and_congr_left fun _ => ?_)
    exact ⟨fun h _ => h, fun h => h rfl⟩
  · rw [FileTree.writeTarget_name (plainName_defaultOutput hc hnul), defaultNames, if_neg hc]
    exact (and_iff_right fun h => absurd h hc).symm

theorem writeTarget_defaultOutput_nul (s : UInt32) :
    t.writeTarget workDir (defaultOutput '\x00' s) = .error .nulInPath :=
  FileTree.writeTarget_nul (nul_mem_defaultOutput_iff.2 rfl)

theorem place_of_writeTarget (h : t.writeTarget workDir (defaultOutput c s) = .ok place) :
    place = workDir ++ defaultNames c s := by
  by_cases hnul : c = '\x00'
  · subst hnul
    rw [writeTarget_defaultOutput_nul] at h
    cases h
  · exact ((writeTarget_defaultOutput hnul).1 h).2.1

/-- **No two jobs mean the same place**, whatever else is in the trees. -/
theorem eq_of_same_place (h : t.writeTarget workDir (defaultOutput c s) = .ok place)
    (h' : t'.writeTarget workDir (defaultOutput c' s') = .ok place) : c = c' ∧ s = s' := by
  have hnames := (place_of_writeTarget h).symm.trans (place_of_writeTarget h')
  exact defaultNames_injective (List.append_cancel_left hnames)

end Job

/-- **Images keep apart without a word about their files.** The path of the image is a name in the working directory just
if the character is not the slash. It means that entry of the working directory, as long as no directory is in its place;
with the slash it means an entry of another directory, which has to be there; with the character zero it means nothing.
So without a slash a run changes no place but that entry. Jobs of different characters or sizes have paths of different
names, and what one of them does leaves the place of the other's image as it is. -/
theorem default_images_keep_apart (fontPath : String) (c : Char) (s : UInt32) :
    (FileTree.Path.ofString (Job.new fontPath c s).output = ⟨false, [(Job.new fontPath c s).output], false⟩ ↔ c ≠ '/') ∧
    (∀ (t : FileTree) (workDir place : Location),
      (c ≠ '/' → c ≠ '\x00' →
        (t.writeTarget workDir (Job.new fontPath c s).output = .ok place ↔
          place = workDir ++ [(Job.new fontPath c s).output] ∧ t.find? place ≠ some .directory)) ∧
      (c = '/' →
        (t.writeTarget workDir (Job.new fontPath c s).output = .ok place ↔
          t.find? (workDir ++ ["glyph_"]) = some .directory ∧ place = workDir ++ ["glyph_", Job.sizeEnding s] ∧
            t.find? place ≠ some .directory)) ∧
      (c = '\x00' → t.writeTarget workDir (Job.new fontPath c s).output = .error .nulInPath)) ∧
    (c ≠ '/' → ∀ (faults : Machine.Faults) (m : Machine) (other : Location),
      other ≠ m.workDir ++ [(Job.new fontPath c s).output] →
        ((Job.new fontPath c s).run (Machine.hostOn faults) m).2.tree.find? other = m.tree.find? other) ∧
    ∀ (fontPath' : String) (c' : Char) (s' : UInt32), (c, s) ≠ (c', s') →
      (FileTree.Path.ofString (Job.new fontPath' c' s').output).names ≠
        (FileTree.Path.ofString (Job.new fontPath c s).output).names ∧
      ∀ (faults : Machine.Faults) (m : Machine) (t : FileTree) (place : Location),
        t.writeTarget m.workDir (Job.new fontPath c s).output = .ok place →
          ((Job.new fontPath' c' s').run (Machine.hostOn faults) m).2.tree.find? place = m.tree.find? place := by
  have houtput : ∀ fontPath c s, (Job.new fontPath c s).output = Job.defaultOutput c s := fun _ _ _ => rfl
  simp only [houtput]
  refine ⟨?_, fun t workDir place => ⟨fun hslash hnul => ?_, ?_, ?_⟩, fun hslash faults m other hother => ?_,
    fun fontPath' c' s' hne => ⟨?_, ?_⟩⟩
  · rw [Job.path_defaultOutput, Job.defaultNames]
    split_ifs with hc
    · simp [hc]
    · exact iff_of_true rfl hc
  · exact FileTree.writeTarget_name (Job.plainName_defaultOutput hslash hnul)
  · rintro rfl
    rw [Job.defaultOutput_eq]
    exact FileTree.writeTarget_below Job.plainName_front (Job.plainName_sizeEnding s)
  · rintro rfl
    exact Job.writeTarget_defaultOutput_nul s
  · refine Job.find?_run fun hplace => hother ?_
    rw [Job.place_of_writeTarget hplace, Job.defaultNames, if_neg hslash]
  · intro hnames
    rw [Job.path_defaultOutput, Job.path_defaultOutput] at hnames
    obtain ⟨rfl, rfl⟩ := Job.defaultNames_injective hnames
    exact hne rfl
  · intro faults m t place hplace
    refine Job.find?_run fun hplace' => ?_
    obtain ⟨rfl, rfl⟩ := Job.eq_of_same_place hplace hplace'
    exact hne rfl

/-- the dot is a character like any other there: its image has a place in an empty directory, and a job for the underscore
leaves what is in that place as it is -/
theorem default_images_keep_apart_dots :
    let output := (Job.new "f.pf2" '.' 48).output
    let m : Machine := { tree := ⟨[(["home", output], .file [])]⟩, workDir := ["home"] }
    FileTree.Path.ofString output = ⟨false, [output], false⟩ ∧
      (⟨[]⟩ : FileTree).writeTarget m.workDir output = .ok ["home", output] ∧
      ((Job.new "f.pf2" '_' 8).run Machine.host m).2.tree.find? ["home", output] = some (.file []) := by
  intro output m
  obtain ⟨hname, hplace, -, hothers⟩ := default_images_keep_apart "f.pf2" '.' 48
  have hplace' : (⟨[]⟩ : FileTree).writeTarget m.workDir output = .ok ["home", output] :=
    ((hplace _ _ _).1 (by decide) (by decide)).2 ⟨rfl, by simp [FileTree.find?]⟩
  refine ⟨hname.2 (by decide), hplace', ?_⟩
  rw [← Machine.hostOn_faultless]
  exact ((hothers "f.pf2" '_' 8 (by decide)).2 {} m _ _ hplace').trans (by simp [FileTree.find?, m])

/-- the image of a slash has a path of two names, so that it has no place without a directory of the first of them, and
has its place in there otherwise -/
theorem default_image_of_slash_below :
    let output := (Job.new "f.pf2" '/' 48).output
    (FileTree.Path.ofString output).names ≠ [output] ∧
      (FileTree.Path.ofString output).names = ["glyph_", "_48px.ppm"] ∧
      (⟨[]⟩ : FileTree).writeTarget [] output = .error .notFound ∧
      (⟨[(["glyph_"], .directory)]⟩ : FileTree).writeTarget [] output = .ok ["glyph_", "_48px.ppm"] := by
  intro output
  have hnames : (FileTree.Path.ofString output).names = ["glyph_", "_48px.ppm"] := by cbv
  refine ⟨?_, hnames, by cbv, by cbv⟩
  rw [hnames]
  exact fun h => absurd (congrArg List.length h) (by decide)

end GlyphImage
