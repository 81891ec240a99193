/-
What reading a command line comes to. A word is told by its spelling (`Word.text_ofString`), so that the reader meets a
setting just where the grammar has one. `Reading.words_eq_ok_iff`: a command line is accepted if and only if it spells
settings one behind the other, and these can be made in that order.
-/
import GlyphImage.CommandLine.Spelling
import GlyphImage.Proofs.Results

namespace GlyphImage.CommandLine

/-! ## Words -/

namespace Word

/-- the argument that spells a word -/
def text : Word → String
  | separator => "--"
  | long name none => "--" ++ name
  | long name (some value) => "--" ++ name ++ "=" ++ value
  | short letter rest => "-" ++ String.singleton letter ++ String.ofList rest
  | plain text => text

theorem splitEquals_append {name : List Char} (h : '=' ∉ name) (value : List Char) :
    splitEquals (name ++ '=' :: value) = (name, some value) := by
  induction name with
  | nil => rfl
  | cons c name ih =>
    have hc : c ≠ '=' := fun heq => h (heq ▸ List.mem_cons_self)
    rw [List.cons_append, splitEquals, if_neg hc, ih (List.not_mem_of_not_mem_cons h)]

theorem splitEquals_of_not_mem {name : List Char} (h : '=' ∉ name) : splitEquals name = (name, none) := by
  induction name with
  | nil => rfl
  | cons c name ih =>
    have hc : c ≠ '=' := fun heq => h (heq ▸ List.mem_cons_self)
    rw [splitEquals, if_neg hc, ih (List.not_mem_of_not_mem_cons h)]

/-- what is split at an equals sign can be put together again -/
theorem eq_of_splitEquals {chars name : List Char} {value : Option (List Char)}
    (h : splitEquals chars = (name, value)) : chars = name ++ value.elim [] ('=' :: ·) := by
  induction chars generalizing name with
  | nil =>
    obtain ⟨rfl, rfl⟩ := Prod.mk.inj h
    rfl
  | cons c chars ih =>
    rw [splitEquals] at h
    split_ifs at h with hc
    · obtain ⟨rfl, rfl⟩ := Prod.mk.inj h
      rw [hc]
      rfl
    · obtain ⟨rfl, rfl⟩ := Prod.mk.inj h
      exact congrArg (c :: ·) (ih rfl)

theorem ofChars_dashes {rest : List Char} (h : rest ≠ []) :
    ofChars ('-' :: '-' :: rest) =
      long (String.ofList (splitEquals rest).1) ((splitEquals rest).2.map String.ofList) := by
  cases rest with
  | nil => exact absurd rfl h
  | cons c rest => rfl

/-- **The spelling of a word is the argument.** -/
theorem text_ofString (argument : String) : (ofString argument).text = argument := by
  apply String.toList_inj.1
  rw [ofString]
  generalize argument.toList = chars
  unfold ofChars
  split
  · rfl
  · rename_i rest _
    obtain ⟨name, value, hsplit⟩ : ∃ name value, splitEquals rest = (name, value) := ⟨_, _, rfl⟩
    rw [hsplit, eq_of_splitEquals hsplit]
    cases value with
    | none => simp [text]
    | some value => simp [text]
  · simp [text]
  · simp [text]

theorem ofString_long {name : String} (hname : '=' ∉ name.toList) (value : String) :
    ofString ("--" ++ name ++ "=" ++ value) = long name (some value) := by
  have hchars : ("--" ++ name ++ "=" ++ value).toList = '-' :: '-' :: (name.toList ++ '=' :: value.toList) := by simp
  rw [ofString, hchars, ofChars_dashes (by simp), splitEquals_append hname]
  simp

theorem ofString_long_alone {name : String} (hname : '=' ∉ name.toList) (hsome : name.toList ≠ []) :
    ofString ("--" ++ name) = long name none := by
  have hchars : ("--" ++ name).toList = '-' :: '-' :: name.toList := by simp
  rw [ofString, hchars, ofChars_dashes hsome, splitEquals_of_not_mem hname]
  simp

theorem ofString_short {letter : Char} (h : letter ≠ '-') (rest : String) :
    ofString ("-" ++ String.singleton letter ++ rest) = short letter rest.toList := by
  have hchars : ("-" ++ String.singleton letter ++ rest).toList = '-' :: letter :: rest.toList := by simp
  rw [ofString, hchars]
  unfold ofChars
  split <;> simp_all

/-- the plain words are the values, as they are -/
theorem ofString_eq_plain_iff {argument text : String} :
    ofString argument = plain text ↔ IsValue argument ∧ text = argument := by
  constructor
  · intro h
    have htext : text = argument := by
      have hspelled := text_ofString argument
      rw [h] at hspelled
      exact hspelled
    refine ⟨?_, htext⟩
    rw [ofString] at h
    unfold ofChars at h
    split at h
    · cases h
    · cases h
    · cases h
    · rename_i chars hseparator hlong hshort
      cases hchars : argument.toList with
      | nil => exact Or.inr (by simp [hchars])
      | cons c rest =>
        by_cases hc : c = '-'
        · subst hc
          cases rest with
          | nil => exact Or.inl (String.toList_inj.1 hchars)
          | cons d rest => exact absurd hchars (hshort d rest)
        · exact Or.inr (by simp [hchars, hc])
  · rintro ⟨hvalue, rfl⟩
    rcases hvalue with rfl | hhead
    · rfl
    · rw [ofString]
      unfold ofChars
      split <;> simp_all

end Word

/-! ## Settings in words -/

/-- the setting that a word names, and the value attached to it if there is one -/
def Word.named? : Word → Option (Setting × Option String)
  | long name attached =>
    match Switch.ofLong? name with
    | some (.setting setting) => some (setting, attached)
    | _ => none
  | short letter rest =>
    match Switch.ofLetter? letter with
    | some (.setting setting) => some (setting, Reading.attachedTo rest)
    | _ => none
  | separator => none
  | plain _ => none

namespace Setting

theorem ofLong?_longName (setting : Setting) : Switch.ofLong? setting.longName = some (.setting setting) := by
  cases setting <;> rfl

theorem ofLetter?_letter (setting : Setting) : Switch.ofLetter? setting.letter = some (.setting setting) := by
  cases setting <;> rfl

theorem eq_longName_of_ofLong? {setting : Setting} {name : String}
    (h : Switch.ofLong? name = some (.setting setting)) : name = setting.longName := by
  unfold Switch.ofLong? at h
  split_ifs at h with hname hname hname hname <;> cases h <;> exact hname

theorem eq_letter_of_ofLetter? {setting : Setting} {letter : Char}
    (h : Switch.ofLetter? letter = some (.setting setting)) : letter = setting.letter := by
  unfold Switch.ofLetter? at h
  split at h <;> cases h <;> rfl

theorem ofString_spelled (setting : Setting) (value : String) :
    Word.ofString (setting.spelled value) = .long setting.longName (some value) :=
  Word.ofString_long (by cases setting <;> decide) value

theorem ofString_letter (setting : Setting) (rest : String) :
    Word.ofString ("-" ++ String.singleton setting.letter ++ rest) = .short setting.letter rest.toList :=
  Word.ofString_short (by cases setting <;> decide) rest

/-- what follows a letter is a value as it stands, or behind an equals sign -/
theorem attachedTo_eq_some_iff {rest : List Char} {value : String} :
    Reading.attachedTo rest = some value ↔
      rest = '=' :: value.toList ∨ rest = value.toList ∧ value ≠ "" ∧ value.toList.head? ≠ some '=' := by
  constructor
  · intro h
    unfold Reading.attachedTo at h
    split at h
    · cases h
    · obtain rfl := Option.some.inj h
      exact Or.inl (by rw [String.toList_ofList])
    · rename_i hsome hequals
      obtain rfl := Option.some.inj h
      rw [String.toList_ofList]
      refine Or.inr ⟨rfl, fun hempty => hsome (String.ofList_eq_empty_iff.1 hempty), fun hhead => ?_⟩
      obtain ⟨later, hlater⟩ := List.head?_eq_some_iff.1 hhead
      exact hequals later hlater
  · rintro (rfl | ⟨rfl, hsome, hequals⟩)
    · rw [Reading.attachedTo, String.ofList_toList]
    · unfold Reading.attachedTo
      split
      · rename_i hempty
        exact absurd (String.toList_inj.1 hempty) hsome
      · rename_i later hchars
        rw [hchars] at hequals
        exact absurd rfl hequals
      · rw [String.ofList_toList]

theorem attachedTo_eq_none_iff {rest : List Char} : Reading.attachedTo rest = none ↔ rest = [] := by
  unfold Reading.attachedTo
  split <;> simp_all

theorem named?_eq_some_iff {setting : Setting} {attached : Option String} {w : Word} :
    w.named? = some (setting, attached) ↔
      w = .long setting.longName attached ∨ ∃ rest, w = .short setting.letter rest ∧ Reading.attachedTo rest = attached := by
  constructor
  · intro h
    unfold Word.named? at h
    split at h
    · split at h
      · rename_i hswitch
        obtain ⟨rfl, rfl⟩ := Prod.mk.inj (Option.some.inj h)
        rw [eq_longName_of_ofLong? hswitch]
        exact Or.inl rfl
      · cases h
    · split at h
      · rename_i hswitch
        obtain ⟨rfl, rfl⟩ := Prod.mk.inj (Option.some.inj h)
        rw [eq_letter_of_ofLetter? hswitch]
        exact Or.inr ⟨_, rfl, rfl⟩
      · cases h
    · cases h
    · cases h
  · rintro (rfl | ⟨rest, rfl, rfl⟩)
    · simp only [Word.named?, ofLong?_longName]
    · simp only [Word.named?, ofLetter?_letter]

/-- **An argument that holds a value is met as a setting with it**, and no other argument is. -/
theorem attaches_iff {setting : Setting} {value argument : String} :
    setting.Attaches value argument ↔ (Word.ofString argument).named? = some (setting, some value) := by
  rw [named?_eq_some_iff]
  constructor
  · rintro (rfl | rfl | ⟨rfl, hvalue⟩)
    · exact Or.inl (setting.ofString_spelled value)
    · refine Or.inr ⟨'=' :: value.toList, ?_, attachedTo_eq_some_iff.2 (Or.inl rfl)⟩
      have hletter := setting.ofString_letter ("=" ++ value)
      rw [← String.append_assoc] at hletter
      simpa using hletter
    · exact Or.inr ⟨value.toList, setting.ofString_letter value, attachedTo_eq_some_iff.2 (Or.inr ⟨rfl, hvalue⟩)⟩
  · have hargument := Word.text_ofString argument
    rintro (hlong | ⟨rest, hshort, hattached⟩)
    · rw [hlong] at hargument
      exact Or.inl hargument.symm
    · rw [hshort, Word.text] at hargument
      rw [← hargument]
      rcases attachedTo_eq_some_iff.1 hattached with rfl | ⟨rfl, hvalue⟩
      · refine Or.inr (Or.inl (String.toList_inj.1 ?_))
        simp
      · exact Or.inr (Or.inr ⟨by rw [String.ofList_toList], hvalue⟩)

/-- **An argument that names a setting is met as one without a value**, and no other argument is. -/
theorem names_iff {setting : Setting} {argument : String} :
    setting.Names argument ↔ (Word.ofString argument).named? = some (setting, none) := by
  rw [named?_eq_some_iff]
  constructor
  · rintro (rfl | rfl)
    · exact Or.inl (Word.ofString_long_alone (by cases setting <;> decide) (by cases setting <;> decide))
    · have hletter := setting.ofString_letter ""
      rw [String.append_empty] at hletter
      exact Or.inr ⟨[], hletter, rfl⟩
  · have hargument := Word.text_ofString argument
    rintro (hlong | ⟨rest, hshort, hnone⟩)
    · rw [hlong] at hargument
      exact Or.inl hargument.symm
    · obtain rfl := attachedTo_eq_none_iff.1 hnone
      rw [hshort] at hargument
      exact Or.inr (hargument.symm.trans String.append_empty)

end Setting

/-! ## Reading -/

namespace Reading

variable {s s' : Settings} {setting : Setting} {value argument : String} {arguments rest : List String}

theorem words_cons {r : Reading} {w : Word} (hword : Word.ofString argument = w) (hw : w ≠ .separator) :
    r.words (argument :: rest) = r.word w >>= fun r' => r'.words rest := by
  cases w with
  | separator => exact absurd rfl hw
  | long | short | plain =>
    simp only [words, hword]
    split <;> simp_all [bind, Except.bind]

/-- a word that names a setting is met as that setting -/
theorem word_of_named {r : Reading} {w : Word} {attached : Option String} (h : w.named? = some (setting, attached)) :
    r.word w = r.meet (.setting setting) attached := by
  rcases Setting.named?_eq_some_iff.1 h with rfl | ⟨later, rfl, rfl⟩
  · simp only [word, Setting.ofLong?_longName]
  · simp only [word, Setting.ofLetter?_letter]

theorem words_of_named {r : Reading} {attached : Option String}
    (h : (Word.ofString argument).named? = some (setting, attached)) :
    r.words (argument :: rest) = r.meet (.setting setting) attached >>= fun r' => r'.words rest := by
  have hseparator : Word.ofString argument ≠ .separator := fun hw => by
    rw [hw] at h
    cases h
  rw [words_cons rfl hseparator, word_of_named h]

/-- an argument that holds a value makes its setting at once -/
theorem words_attached (hargument : setting.Attaches value argument) :
    words ⟨s, none⟩ (argument :: rest) = s.settle setting value >>= fun s' => words ⟨s', none⟩ rest := by
  rw [words_of_named (Setting.attaches_iff.1 hargument)]
  simp only [meet, settle, bind, Except.bind]
  cases s.settle setting value <;> rfl

/-- an argument that names a setting leaves it open -/
theorem words_named (hargument : setting.Names argument) :
    words ⟨s, none⟩ (argument :: rest) = words ⟨s, some ⟨setting, none⟩⟩ rest := by
  rw [words_of_named (Setting.names_iff.1 hargument)]
  rfl

/-- a value is kept for the setting that is open -/
theorem words_value (hvalue : IsValue value) :
    words ⟨s, some ⟨setting, none⟩⟩ (value :: rest) = words ⟨s, some ⟨setting, some value⟩⟩ rest := by
  simp only [words, Word.ofString_eq_plain_iff.2 ⟨hvalue, rfl⟩, word]

/-! ### Open settings -/

/-- the last word named a setting, and its value is still to come -/
def Awaits (r : Reading) : Prop := ∃ setting, r.pending = some ⟨setting, none⟩

theorem word_plain {r : Reading} (h : ¬r.Awaits) (text : String) : r.word (.plain text) = .error .unknownArgument := by
  cases hpending : r.pending with
  | none => simp only [word, hpending]
  | some pending =>
    obtain ⟨setting, value⟩ := pending
    cases value with
    | none => exact absurd ⟨setting, hpending⟩ h
    | some value => simp only [word, hpending]

/-- what a word that is no value leads to depends on the settings made so far, the open one included -/
theorem word_congr {r r' : Reading} (h : r.settle = r'.settle) {w : Word} (hw : ∀ text, w ≠ .plain text) :
    r.word w = r'.word w := by
  cases w with
  | plain text => exact absurd rfl (hw text)
  | separator => rfl
  | long name attached => simp only [word, meet, h]
  | short letter later => simp only [word, meet, h]

/-- an open setting that is refused is noticed at the next word that is no value -/
theorem exists_error_of_word {r : Reading} {stop : Stop} (h : r.settle = .error stop) {w : Word}
    (hw : ∀ text, w ≠ .plain text) : ∃ stop', r.word w = .error stop' := by
  have hmeet : ∀ switch attached, r.meet switch attached = .error stop := by
    intro switch attached
    simp only [meet, h]
    rfl
  cases w with
  | plain text => exact absurd rfl (hw text)
  | separator => exact ⟨_, rfl⟩
  | long name attached =>
    simp only [word, hmeet]
    split
    · exact ⟨_, rfl⟩
    · exact ⟨_, rfl⟩
    · split_ifs <;> exact ⟨_, rfl⟩
  | short letter later =>
    simp only [word, hmeet]
    split <;> exact ⟨_, rfl⟩

theorem words_congr {r r' : Reading} (h : r.settle = r'.settle) (hr : ¬r.Awaits) (hr' : ¬r'.Awaits)
    (arguments : List String) : r.words arguments = r'.words arguments := by
  cases arguments with
  | nil => exact h
  | cons argument rest =>
    cases hword : Word.ofString argument with
    | separator => simp only [words, hword, h]
    | plain text => rw [words_cons hword (by simp), words_cons hword (by simp), word_plain hr, word_plain hr']
    | long | short => rw [words_cons hword (by simp), words_cons hword (by simp), word_congr h (by simp)]

/-- an open setting that is refused spoils the reading, unless the next argument is the value that it awaits -/
theorem words_ne_ok {r : Reading} {stop : Stop} (h : r.settle = .error stop)
    (hvalue : r.Awaits → ∀ value rest, arguments = value :: rest → ¬IsValue value) : r.words arguments ≠ .ok s' := by
  cases arguments with
  | nil => exact fun hwords => by cases h.symm.trans hwords
  | cons argument rest =>
    cases hword : Word.ofString argument with
    | separator =>
      simp only [words, hword, h]
      split_ifs <;> simp
    | plain text =>
      have hawaits : ¬r.Awaits := fun hawaits =>
        hvalue hawaits argument rest rfl (Word.ofString_eq_plain_iff.1 hword).1
      rw [words_cons hword (by simp), word_plain hawaits]
      simp [bind, Except.bind]
    | long | short =>
      obtain ⟨stop', hstop⟩ := exists_error_of_word h (w := Word.ofString argument) (by simp [hword])
      rw [words_cons rfl (by simp [hword]), hstop]
      simp [bind, Except.bind]

/-- **A setting whose value has been read is made**, now or never. -/
theorem words_read_iff :
    words ⟨s, some ⟨setting, some value⟩⟩ arguments = .ok s' ↔
      ∃ made, s.settle setting value = .ok made ∧ words ⟨made, none⟩ arguments = .ok s' := by
  have hclosed : ¬Awaits ⟨s, some ⟨setting, some value⟩⟩ := by simp [Awaits]
  cases hmade : s.settle setting value with
  | error stop =>
    refine iff_of_false (words_ne_ok hmade fun hawaits => absurd hawaits hclosed) ?_
    rintro ⟨made, hmade', -⟩
    cases hmade'
  | ok made =>
    have hsettle : settle ⟨s, some ⟨setting, some value⟩⟩ = settle ⟨made, none⟩ := hmade
    rw [words_congr hsettle hclosed (by simp [Awaits])]
    simp

/-- only a value may follow where one is awaited -/
theorem exists_value_of_words (h : words ⟨s, some ⟨setting, none⟩⟩ arguments = .ok s') :
    ∃ value rest, arguments = value :: rest ∧ IsValue value := by
  by_contra hnone
  refine words_ne_ok rfl (fun _ value rest harguments hvalue => ?_) h
  exact hnone ⟨value, rest, harguments, hvalue⟩

/-! ### The grammar -/

/-- where no setting is open, a word that names none is refused -/
theorem exists_error_of_unnamed {w : Word} (h : w.named? = none) : ∃ stop, word ⟨s, none⟩ w = .error stop := by
  cases w with
  | separator => exact ⟨_, rfl⟩
  | plain text => exact ⟨_, rfl⟩
  | long name attached =>
    simp only [Word.named?] at h
    cases hswitch : Switch.ofLong? name with
    | none => exact ⟨.unknownArgument, by simp only [word, hswitch]⟩
    | some switch =>
      cases switch with
      | setting setting => simp [hswitch] at h
      | help | version =>
        simp only [word, hswitch]
        split_ifs <;> exact ⟨_, rfl⟩
  | short letter later =>
    simp only [Word.named?] at h
    cases hswitch : Switch.ofLetter? letter with
    | none => exact ⟨.unknownArgument, by simp only [word, hswitch]⟩
    | some switch =>
      cases switch with
      | setting setting => simp [hswitch] at h
      | help | version =>
        simp only [word, hswitch]
        exact ⟨_, rfl⟩

/-- where no setting is open, an argument spells one, or two dashes end the command line -/
theorem spelled_of_words (h : words ⟨s, none⟩ (argument :: rest) = .ok s') :
    (argument = "--" ∧ rest = [] ∧ s' = s) ∨
      (∃ (setting : Setting) (value : String), setting.Attaches value argument) ∨
      ∃ setting : Setting, setting.Names argument := by
  cases hnamed : (Word.ofString argument).named? with
  | some named =>
    obtain ⟨setting, attached⟩ := named
    cases attached with
    | none => exact Or.inr (Or.inr ⟨setting, Setting.names_iff.2 hnamed⟩)
    | some value => exact Or.inr (Or.inl ⟨setting, value, Setting.attaches_iff.2 hnamed⟩)
  | none =>
    by_cases hseparator : Word.ofString argument = .separator
    · have hargument := Word.text_ofString argument
      rw [hseparator] at hargument
      simp only [words, hseparator] at h
      split_ifs at h with hrest
      exact Or.inl ⟨hargument.symm, hrest, (Except.ok.inj h).symm⟩
    · obtain ⟨stop, hstop⟩ := exists_error_of_unnamed (s := s) hnamed
      rw [words_cons rfl hseparator, hstop] at h
      cases h

theorem words_of_assigns {assignments : List Assignment} (hassigns : Assigns arguments assignments)
    (h : s.settleAll assignments = .ok s') : words ⟨s, none⟩ arguments = .ok s' := by
  induction hassigns generalizing s with
  | nothing => exact h
  | separator => exact h
  | attached hargument hlater ih =>
    obtain ⟨made, hmade, h⟩ := exists_of_bind_eq_ok h
    rw [words_attached hargument, hmade]
    exact ih h
  | following hargument hvalue hlater ih =>
    obtain ⟨made, hmade, h⟩ := exists_of_bind_eq_ok h
    rw [words_named hargument, words_value hvalue, words_read_iff]
    exact ⟨made, hmade, ih h⟩

theorem exists_assigns_of_words (h : words ⟨s, none⟩ arguments = .ok s') :
    ∃ assignments, Assigns arguments assignments ∧ s.settleAll assignments = .ok s' := by
  -- a setting may take two arguments, so the induction is on how many are left
  induction hlength : arguments.length using Nat.strong_induction_on generalizing s arguments with
  | _ length ih =>
    subst hlength
    cases arguments with
    | nil => exact ⟨[], .nothing, h⟩
    | cons argument rest =>
      rcases spelled_of_words h with ⟨rfl, rfl, rfl⟩ | ⟨setting, value, hargument⟩ | ⟨setting, hargument⟩
      · exact ⟨[], .separator, rfl⟩
      · rw [words_attached hargument] at h
        obtain ⟨made, hmade, h⟩ := exists_of_bind_eq_ok h
        obtain ⟨later, hlater, hsettled⟩ := ih _ (by simp) h rfl
        exact ⟨_, .attached hargument hlater, (Settings.settleAll_cons hmade).trans hsettled⟩
      · rw [words_named hargument] at h
        obtain ⟨value, rest, rfl, hvalue⟩ := exists_value_of_words h
        rw [words_value hvalue, words_read_iff] at h
        obtain ⟨made, hmade, h⟩ := h
        obtain ⟨later, hlater, hsettled⟩ := ih _ (by simp) h rfl
        exact ⟨_, .following hargument hvalue hlater, (Settings.settleAll_cons hmade).trans hsettled⟩

/-- **A command line is read as what it spells**: it is accepted if and only if it spells settings that can be made one
after another, and then these are made. -/
theorem words_eq_ok_iff :
    words ⟨s, none⟩ arguments = .ok s' ↔
      ∃ assignments, Assigns arguments assignments ∧ s.settleAll assignments = .ok s' := by
  constructor
  · exact exists_assigns_of_words
  · rintro ⟨assignments, hassigns, h⟩
    exact words_of_assigns hassigns h

end Reading

/-- the job of a command line is that of the settings which it spells -/
theorem parse_eq_ok_iff {arguments : List String} {job : Job} :
    parse arguments = .ok job ↔
      ∃ assignments settings, Assigns arguments assignments ∧ Settings.settleAll {} assignments = .ok settings ∧
        settings.job = .ok job := by
  unfold parse
  constructor
  · intro h
    cases hwords : Reading.words {} arguments with
    | error stop =>
      rw [hwords] at h
      cases h
    | ok settings =>
      rw [hwords] at h
      obtain ⟨assignments, hassigns, hsettled⟩ := Reading.words_eq_ok_iff.1 hwords
      exact ⟨assignments, settings, hassigns, hsettled, h⟩
  · rintro ⟨assignments, settings, hassigns, hsettled, h⟩
    have hwords : Reading.words {} arguments = .ok settings :=
      Reading.words_eq_ok_iff.2 ⟨assignments, hassigns, hsettled⟩
    rw [hwords]
    exact h

end GlyphImage.CommandLine
