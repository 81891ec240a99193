/-
Where short relative paths lead. A `PlainName` stands for an entry of whatever directory it is looked up in: nothing in it
is special to paths, and it is not too long. A path that is one plain name means an entry of the working directory
(`FileTree.writeTarget_name`); with a slash between two of them it means an entry of a directory that has to be there
already (`FileTree.writeTarget_below`).
-/
import GlyphImage.Host.FileTree
import Mathlib

namespace GlyphImage

/-! ## Lengths -/

theorem Utf8.length_encodeChar_le (c : Char) : (encodeChar c).length ≤ 4 := by
  simp only [encodeChar]
  split_ifs <;> simp

theorem Utf8.length_encode_le (text : String) : (encode text).length ≤ 4 * text.toList.length := by
  rw [encode, List.length_flatMap, mul_comm, ← smul_eq_mul]
  refine (List.sum_le_card_nsmul _ 4 ?_).trans_eq (by rw [List.length_map])
  intro n hn
  obtain ⟨c, -, rfl⟩ := List.mem_map.1 hn
  exact length_encodeChar_le c

namespace FileTree

/-! ## Slashes -/

theorem splitSlash_of_not_mem {x : List Char} (h : '/' ∉ x) : splitSlash x = [x] := by
  induction x with
  | nil => rfl
  | cons c x ih => simp only [splitSlash, if_neg (List.ne_of_not_mem_cons h).symm, ih (List.not_mem_of_not_mem_cons h)]

theorem splitSlash_append_slash {x : List Char} (h : '/' ∉ x) (rest : List Char) :
    splitSlash (x ++ '/' :: rest) = x :: splitSlash rest := by
  induction x with
  | nil => simp only [List.nil_append, splitSlash, if_pos]
  | cons c x ih =>
    simp only [List.cons_append, splitSlash, if_neg (List.ne_of_not_mem_cons h).symm,
      ih (List.not_mem_of_not_mem_cons h)]

variable {name inner : String}

/-- a text without slashes is a path of one name -/
theorem Path.ofString_name (hne : name ≠ "") (h : '/' ∉ name.toList) : Path.ofString name = ⟨false, [name], false⟩ := by
  have hchars : name.toList ≠ [] := String.toList_eq_nil_iff.not.2 hne
  have hhead : name.toList.head? ≠ some '/' := fun hslash => h (List.mem_of_head? hslash)
  have hlast : name.toList.getLast? ≠ some '/' := fun hslash => h (List.mem_of_getLast? hslash)
  simp only [ofString, splitSlash_of_not_mem h, hhead, hlast, decide_false]
  simp [hchars]

/-- a slash stands between the names of a path -/
theorem Path.ofString_below (hne : name ≠ "") (h : '/' ∉ name.toList) (hne' : inner ≠ "") (h' : '/' ∉ inner.toList) :
    Path.ofString (name ++ "/" ++ inner) = ⟨false, [name, inner], false⟩ := by
  have htext : (name ++ "/" ++ inner).toList = name.toList ++ '/' :: inner.toList := by
    simp only [String.toList_append, List.append_assoc]
    rfl
  have hchars : name.toList ≠ [] := String.toList_eq_nil_iff.not.2 hne
  have hchars' : inner.toList ≠ [] := String.toList_eq_nil_iff.not.2 hne'
  have hhead : (name.toList ++ '/' :: inner.toList).head? ≠ some '/' := by
    rw [List.head?_append_of_ne_nil _ hchars]
    exact fun hslash => h (List.mem_of_head? hslash)
  have hlast : (name.toList ++ '/' :: inner.toList).getLast? ≠ some '/' := by
    rw [List.append_cons, List.getLast?_append_of_ne_nil _ hchars']
    exact fun hslash => h' (List.mem_of_getLast? hslash)
  simp only [ofString, htext, splitSlash_append_slash h, splitSlash_of_not_mem h', hhead, hlast, decide_false]
  simp [hchars, hchars']

/-! ## Names -/

/-- the text stands for an entry of whatever directory it is looked up in -/
structure PlainName (name : String) : Prop where
  ne_empty : name ≠ ""
  ne_self : name ≠ "."
  ne_parent : name ≠ ".."
  slash_not_mem : '/' ∉ name.toList
  nul_not_mem : '\x00' ∉ name.toList
  length_le : (Utf8.encode name).length ≤ nameLimit

/-- a short text that starts with no dot, without slashes and zeros -/
theorem PlainName.of_chars {first : Char} {rest : List Char} (hchars : name.toList = first :: rest) (hfirst : first ≠ '.')
    (hslash : '/' ∉ name.toList) (hnul : '\x00' ∉ name.toList) (hlength : rest.length < 63) : PlainName name where
  ne_empty := by
    rintro rfl
    cases hchars
  ne_self := by
    rintro rfl
    exact hfirst (List.cons.inj hchars).1.symm
  ne_parent := by
    rintro rfl
    exact hfirst (List.cons.inj hchars).1.symm
  slash_not_mem := hslash
  nul_not_mem := hnul
  length_le := by
    have hbytes := Utf8.length_encode_le name
    rw [hchars, List.length_cons] at hbytes
    simp only [nameLimit]
    omega

variable {t : FileTree} {workDir place : Location}

theorem PlainName.child_eq (h : PlainName name) (directory : Location) :
    child directory name = .ok (directory ++ [name]) := by
  rw [child, if_neg h.ne_self, if_neg h.ne_parent, if_neg (Nat.not_lt.2 h.length_le)]

theorem PlainName.pathFault?_eq (h : PlainName name) : pathFault? name = none := by
  have hlength := h.length_le
  simp only [nameLimit] at hlength
  rw [pathFault?, if_neg h.nul_not_mem, if_neg (String.isEmpty_iff.not.2 h.ne_empty),
    if_neg (by simp only [pathLimit]; omega)]

theorem PlainName.pathFault?_below (h : PlainName name) (h' : PlainName inner) :
    pathFault? (name ++ "/" ++ inner) = none := by
  have hlength := h.length_le
  have hlength' := h'.length_le
  have hslash : (Utf8.encode "/").length = 1 := by decide
  have hnul : '\x00' ∉ (name ++ "/" ++ inner).toList := by
    simp only [String.toList_append, List.mem_append, not_or]
    exact ⟨⟨h.nul_not_mem, by decide⟩, h'.nul_not_mem⟩
  have hne : name ++ "/" ++ inner ≠ "" := fun hempty =>
    h.ne_empty (String.append_eq_empty_iff.1 (String.append_eq_empty_iff.1 hempty).1).1
  simp only [nameLimit] at hlength hlength'
  rw [pathFault?, if_neg hnul, if_neg (String.isEmpty_iff.not.2 hne), if_neg]
  simp only [Utf8.encode_append, List.length_append, hslash, pathLimit]
  omega

/-- the last name of a path is looked up where the names before it lead -/
theorem writeTarget_of_path {path : String} (names : List String) (hfault : pathFault? path = none)
    (hpath : Path.ofString path = ⟨false, names ++ [name], false⟩) (h : PlainName name) :
    t.writeTarget workDir path = .ok place ↔
      ∃ directory, t.descend workDir names = .ok directory ∧ place = directory ++ [name] ∧
        t.find? place ≠ some .directory := by
  simp only [writeTarget, hfault, hpath, List.getLast?_concat, List.dropLast_concat, Path.origin, h.ne_self, h.ne_parent,
    Bool.false_eq_true, or_self, if_false]
  cases t.descend workDir names with
  | error e => simp [bind, Except.bind]
  | ok directory =>
    simp only [bind, Except.bind, h.child_eq, Except.ok.injEq, exists_eq_left']
    split
    · rename_i hdirectory
      refine ⟨fun himpossible => (by cases himpossible), ?_⟩
      rintro ⟨rfl, hfree⟩
      exact absurd hdirectory hfree
    · rename_i hfree
      rw [Except.ok.injEq]
      constructor
      · rintro rfl
        exact ⟨rfl, hfree⟩
      · rintro ⟨rfl, -⟩
        rfl

theorem descend_name (h : PlainName name) :
    t.descend workDir [name] = .ok place ↔ place = workDir ++ [name] ∧ t.find? place = some .directory := by
  simp only [descend, h.child_eq]
  constructor
  · intro hlead
    split at hlead
    · cases hlead
    · rename_i hdirectory
      obtain rfl := Except.ok.inj hlead
      exact ⟨rfl, hdirectory⟩
    · cases hlead
  · rintro ⟨rfl, hdirectory⟩
    simp only [hdirectory]

/-- **A path that is a plain name** means the entry of that name in the working directory. -/
theorem writeTarget_name (h : PlainName name) :
    t.writeTarget workDir name = .ok place ↔ place = workDir ++ [name] ∧ t.find? place ≠ some .directory := by
  rw [writeTarget_of_path [] h.pathFault?_eq (Path.ofString_name h.ne_empty h.slash_not_mem) h]
  simp only [descend, Except.ok.injEq, exists_eq_left']

/-- **A path of two plain names** means an entry of a directory that has to be there. -/
theorem writeTarget_below (h : PlainName name) (h' : PlainName inner) :
    t.writeTarget workDir (name ++ "/" ++ inner) = .ok place ↔
      t.find? (workDir ++ [name]) = some .directory ∧ place = workDir ++ [name, inner] ∧
        t.find? place ≠ some .directory := by
  have hpath := Path.ofString_below h.ne_empty h.slash_not_mem h'.ne_empty h'.slash_not_mem
  rw [writeTarget_of_path [name] (h.pathFault?_below h') hpath h']
  simp only [descend_name h, and_assoc, exists_eq_left, List.append_assoc, List.cons_append, List.nil_append]

/-- no entry has the character zero in its name -/
theorem writeTarget_nul {path : String} (h : '\x00' ∈ path.toList) :
    t.writeTarget workDir path = .error .nulInPath := by
  rw [writeTarget, pathFault?, if_pos h]

end FileTree

end GlyphImage
