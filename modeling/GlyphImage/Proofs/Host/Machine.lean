/-
What a job's actions do to a simulated machine, whatever faults its disk has. Warnings are noted in order and change
nothing else (`Machine.warnAll_hostOn`). Writing to a file changes no other place, and what is there afterwards are all
bytes if no write fails (`Machine.writeAll_file`). So storing an image changes at most the place that its path means, and
prints only after the last byte; if it goes through, the tree is as if the file had been put there at once
(`Canvas.save_spec`). On a disk without faults it does go through wherever there is room (`Canvas.save_machine`).
-/
import GlyphImage.Host.Machine
import GlyphImage.Proofs.Results
import GlyphImage.Run
import Mathlib

namespace GlyphImage

/-! ## Trees -/

namespace FileTree

variable {t : FileTree} {place : Location}

/-- the tree with these contents at a place; a device keeps nothing -/
def filled (t : FileTree) (place : Location) (bytes : List UInt8) : FileTree :=
  match t.find? place with
  | some (.device _) => t
  | _ => t.store place (.file bytes)

theorem find?_filled_self (hplace : place ≠ []) (hdevice : ∀ device, t.find? place ≠ some (.device device))
    (bytes : List UInt8) : (t.filled place bytes).find? place = some (.file bytes) := by
  unfold filled
  split
  · rename_i device hfound
    exact absurd hfound (hdevice device)
  · rw [find?_store _ _ _ _ hplace, if_pos rfl]

theorem find?_filled_of_ne {other : Location} (h : other ≠ place) (bytes : List UInt8) :
    (t.filled place bytes).find? other = t.find? other := by
  unfold filled
  split
  · rfl
  · have hkey : (other == place) = false := beq_false_of_ne h
    simp only [find?, store, List.lookup_cons, hkey]

/-- no path means a directory for writing -/
theorem find?_of_writeTarget {workDir : Location} {path : String} (h : t.writeTarget workDir path = .ok place) :
    t.find? place ≠ some .directory := by
  unfold writeTarget at h
  cases hfault : pathFault? path with
  | some e => rw [hfault] at h; cases h
  | none =>
    simp only [hfault] at h
    cases hlast : (Path.ofString path).names.getLast? with
    | none => rw [hlast] at h; cases h
    | some last =>
      simp only [hlast] at h
      obtain ⟨directory, -, h⟩ := exists_of_bind_eq_ok h
      split_ifs at h
      obtain ⟨found, -, h⟩ := exists_of_bind_eq_ok h
      split at h
      · cases h
      · rename_i hne
        obtain rfl := Except.ok.inj h
        exact hne

theorem ne_nil_of_writeTarget {workDir : Location} {path : String} (h : t.writeTarget workDir path = .ok place) :
    place ≠ [] := by
  rintro rfl
  exact find?_of_writeTarget h rfl

/-- what creating a file leaves: a device stays, anything else is replaced by an empty file -/
theorem create_eq (t : FileTree) (workDir : Location) (path : String) :
    t.create workDir path = (t.writeTarget workDir path).map fun place => (place, t.filled place []) := by
  unfold create
  congr 1
  funext place
  cases hfound : t.find? place with
  | none => simp only [filled, hfound]
  | some entry => cases entry <;> simp only [filled, hfound]

end FileTree

/-! ## Machines -/

namespace Machine

variable {faults : Faults} {m : Machine} {place : Location}

theorem warnAll_hostOn (faults : Faults) (warnings : List Pff2.Warning) (m : Machine) :
    (hostOn faults).warnAll warnings m = ((), { m with warnings := m.warnings ++ warnings }) := by
  induction warnings generalizing m with
  | nil =>
    rw [List.append_nil]
    rfl
  | cons warning rest ih =>
    have hfirst := ih { m with warnings := m.warnings ++ [warning] }
    rw [List.append_assoc] at hfirst
    exact hfirst

/-- reading fails or not; the machine stays -/
theorem readFile_hostOn (faults : Faults) (path : String) (m : Machine) :
    ∃ result, (hostOn faults).readFile path m = (result, m) := by
  simp only [hostOn, host]
  cases faults.reading m.tree path with
  | some e => exact ⟨.error e, rfl⟩
  | none => exact ⟨m.tree.read m.workDir path, rfl⟩

/-- creating a file fails and changes nothing, or there is an empty file, or a device as before -/
theorem createFile_hostOn (faults : Faults) (path : String) (m : Machine) :
    (∃ e, (hostOn faults).createFile path m = (.error e, m) ∧
      (faults = {} → m.tree.writeTarget m.workDir path = .error e)) ∨
    ∃ place, m.tree.writeTarget m.workDir path = .ok place ∧
      (hostOn faults).createFile path m = (.ok place, { m with tree := m.tree.filled place [] }) := by
  simp only [hostOn, createFile, FileTree.create_eq]
  cases hfault : faults.creating m.tree path with
  | some e =>
    refine Or.inl ⟨e, rfl, ?_⟩
    rintro rfl
    cases hfault
  | none =>
    cases m.tree.writeTarget m.workDir path with
    | error e => exact Or.inl ⟨e, rfl, fun _ => rfl⟩
    | ok place => exact Or.inr ⟨place, rfl, rfl⟩

/-- **One write to a file** adds what arrives and changes no other place; all of it arrives if the write goes through. -/
theorem writeFile_file {contents : List UInt8} (hplace : place ≠ []) (h : m.tree.find? place = some (.file contents))
    (faults : Faults) (bytes : List UInt8) :
    ∃ result tree arrived, (hostOn faults).writeFile place bytes m = (result, { m with tree }) ∧
      (∀ other, tree.find? other = if other = place then some (.file (contents ++ arrived)) else m.tree.find? other) ∧
      (result = .ok () → arrived = bytes) ∧ (faults = {} → result = .ok ()) := by
  have hwritten : ∀ arrived, writeFile place arrived m =
      (.ok (), { m with tree := m.tree.store place (.file (contents ++ arrived)) }) := by
    intro arrived
    simp only [writeFile, FileTree.append, h]
  have hfind : ∀ arrived other, (m.tree.store place (.file (contents ++ arrived))).find? other =
      if other = place then some (.file (contents ++ arrived)) else m.tree.find? other :=
    fun arrived other => FileTree.find?_store _ _ _ _ hplace
  cases hfault : faults.writing m.tree place bytes with
  | some fault =>
    obtain ⟨count, e⟩ := fault
    refine ⟨.error e, _, bytes.take count, ?_, hfind _, fun h => (by cases h), ?_⟩
    · simp only [hostOn, hfault, hwritten]
    · rintro rfl
      cases hfault
  | none =>
    refine ⟨.ok (), _, bytes, ?_, hfind _, fun _ => rfl, fun _ => rfl⟩
    simp only [hostOn, hfault, hwritten]

/-- **Writes to a file** together add what arrives of them and change no other place. -/
theorem writeAll_file {contents : List UInt8} (hplace : place ≠ []) (h : m.tree.find? place = some (.file contents))
    (faults : Faults) (writes : List (List UInt8)) :
    ∃ result tree arrived, (hostOn faults).writeAll place writes m = (result, { m with tree }) ∧
      (∀ other, tree.find? other = if other = place then some (.file (contents ++ arrived)) else m.tree.find? other) ∧
      (result = .ok () → arrived = writes.flatten) ∧ (faults = {} → result = .ok ()) := by
  -- what has arrived before is part of the contents, so the induction is over all contents
  induction writes generalizing m contents with
  | nil =>
    refine ⟨.ok (), m.tree, [], rfl, fun other => ?_, fun _ => rfl, fun _ => rfl⟩
    split_ifs with hother
    · rw [hother, h, List.append_nil]
    · rfl
  | cons bytes rest ih =>
    obtain ⟨result, tree, arrived, hfirst, hfind, harrived, hfaultless⟩ := writeFile_file hplace h faults bytes
    unfold Host.writeAll
    cases result with
    | error e =>
      refine ⟨.error e, tree, arrived, ?_, hfind, fun h => (by cases h), fun h => absurd (hfaultless h) (by simp)⟩
      simp only [bind, StateT.bind, hfirst]
      rfl
    | ok done =>
      obtain rfl := harrived rfl
      obtain ⟨result', tree', later, hrest, hfind', hlater, hfaultless'⟩ :=
        ih (m := { m with tree }) ((hfind place).trans (if_pos rfl))
      refine ⟨result', tree', arrived ++ later, ?_, fun other => ?_, fun hok => ?_, hfaultless'⟩
      · simp only [bind, StateT.bind, hfirst]
        exact hrest
      · rw [hfind', hfind]
        split_ifs
        · rw [List.append_assoc]
        · rfl
      · rw [hlater hok, List.flatten_cons]

/-- one write to a device changes nothing; on a disk without faults only a full device refuses it -/
theorem writeFile_device {device : Device} (h : m.tree.find? place = some (.device device)) (faults : Faults)
    (bytes : List UInt8) :
    ∃ result, (hostOn faults).writeFile place bytes m = (result, m) ∧
      (faults = {} → device ≠ .full → result = .ok ()) := by
  have hwritten : ∀ arrived, ∃ result, writeFile place arrived m = (result, m) ∧
      (device ≠ .full → result = .ok ()) := by
    intro arrived
    simp only [writeFile, FileTree.append, h]
    cases device with
    | null => exact ⟨_, rfl, fun _ => rfl⟩
    | full =>
      by_cases harrived : arrived = []
      · exact ⟨.ok (), by rw [if_pos harrived], fun _ => rfl⟩
      · exact ⟨.error .noSpace, by rw [if_neg harrived], fun hfull => absurd rfl hfull⟩
  cases hfault : faults.writing m.tree place bytes with
  | some fault =>
    obtain ⟨count, e⟩ := fault
    obtain ⟨_, hstays, -⟩ := hwritten (bytes.take count)
    refine ⟨.error e, ?_, ?_⟩
    · simp only [hostOn, hfault, hstays]
    · rintro rfl
      cases hfault
  | none =>
    obtain ⟨result, hstays, hresult⟩ := hwritten bytes
    refine ⟨result, ?_, fun _ => hresult⟩
    simp only [hostOn, hfault, hstays]

theorem writeAll_device {device : Device} (h : m.tree.find? place = some (.device device)) (faults : Faults)
    (writes : List (List UInt8)) :
    ∃ result, (hostOn faults).writeAll place writes m = (result, m) ∧
      (faults = {} → device ≠ .full → result = .ok ()) := by
  induction writes with
  | nil => exact ⟨.ok (), rfl, fun _ _ => rfl⟩
  | cons bytes rest ih =>
    obtain ⟨result, hfirst, hresult⟩ := writeFile_device h faults bytes
    unfold Host.writeAll
    cases result with
    | error e =>
      refine ⟨.error e, ?_, hresult⟩
      simp only [bind, StateT.bind, hfirst]
      rfl
    | ok done =>
      obtain ⟨result', hrest, hresult'⟩ := ih
      refine ⟨result', ?_, hresult'⟩
      simp only [bind, StateT.bind, hfirst]
      exact hrest

/-- **Writes to an opened file**, whatever stands there: at most its place changes, and if all of them go through, the
tree is as if their bytes had been put there at once. On a disk without faults they do, unless a full device stands
there. -/
theorem writeAll_created (hplace : place ≠ []) (faults : Faults) (m : Machine) (writes : List (List UInt8)) :
    ∃ result tree, (hostOn faults).writeAll place writes { m with tree := m.tree.filled place [] } =
        (result, { m with tree }) ∧
      (∀ other, other ≠ place → tree.find? other = m.tree.find? other) ∧
      (result = .ok () → ∀ other, tree.find? other = (m.tree.filled place writes.flatten).find? other) ∧
      (faults = {} → m.tree.find? place ≠ some (.device .full) → result = .ok ()) := by
  by_cases hfile : ∃ device, m.tree.find? place = some (.device device)
  · obtain ⟨device, hdevice⟩ := hfile
    have hstays : ∀ bytes, m.tree.filled place bytes = m.tree := by
      intro bytes
      unfold FileTree.filled
      rw [hdevice]
    obtain ⟨result, hall, hresult⟩ := writeAll_device hdevice faults writes
    refine ⟨result, m.tree, ?_, fun _ _ => rfl, fun _ _ => ?_, fun hfaults hroom => hresult hfaults fun hfull => ?_⟩
    · rw [hstays]
      exact hall
    · rw [hstays]
    · exact hroom (hfull ▸ hdevice)
  · push Not at hfile
    have hempty : (m.tree.filled place []).find? place = some (.file []) := FileTree.find?_filled_self hplace hfile []
    obtain ⟨result, tree, arrived, hall, hfind, harrived, hresult⟩ :=
      writeAll_file (m := { m with tree := m.tree.filled place [] }) hplace hempty faults writes
    refine ⟨result, tree, hall, fun other hother => ?_, fun hok other => ?_, fun hfaults _ => hresult hfaults⟩
    · rw [hfind, if_neg hother, FileTree.find?_filled_of_ne hother]
    · obtain rfl := harrived hok
      rw [hfind]
      split_ifs with hother
      · rw [hother, FileTree.find?_filled_self hplace hfile, List.nil_append]
      · rw [FileTree.find?_filled_of_ne hother, FileTree.find?_filled_of_ne hother]

end Machine

/-! ## Images -/

namespace Canvas

variable {m : Machine} {path : String} {place : Location}

theorem flatten_batches_chunks (canvas : Canvas) :
    (Buffer.batches #[] (Pixmap.chunks canvas)).flatten = Pixmap.encode canvas := by
  rw [Buffer.flatten_batches, Pixmap.encode, List.nil_append]

/-- **What storing a canvas can do.** No file can be opened, and nothing happens; or a write fails, at most the path's own
place changes and nothing is printed; or the file is in the tree and the confirmation is printed. The disk without
faults fails only where the path means no place, and where a full device stands. -/
theorem save_spec (faults : Machine.Faults) (m : Machine) (path : String) (canvas : Canvas) :
    (∃ e, canvas.save (Machine.hostOn faults) path m = (.error (.openFile path e), m) ∧
      (faults = {} → m.tree.writeTarget m.workDir path = .error e)) ∨
    ∃ place, m.tree.writeTarget m.workDir path = .ok place ∧ ∃ tree : FileTree,
      (∀ other, other ≠ place → tree.find? other = m.tree.find? other) ∧
      ((∃ e, canvas.save (Machine.hostOn faults) path m = (.error (.writeFile path e), { m with tree }) ∧
          (faults = {} → m.tree.find? place = some (.device .full))) ∨
        canvas.save (Machine.hostOn faults) path m =
            (.ok (), { m with tree, output := m.output ++ savedLine path }) ∧
          ∀ other, tree.find? other = (m.tree.filled place (Pixmap.encode canvas)).find? other) := by
  unfold save
  rcases Machine.createFile_hostOn faults path m with ⟨e, hcreate, hfaultless⟩ | ⟨place, hplace, hcreate⟩
  · refine Or.inl ⟨e, ?_, hfaultless⟩
    simp only [bind, StateT.bind, hcreate]
    rfl
  · refine Or.inr ⟨place, hplace, ?_⟩
    obtain ⟨result, tree, hall, hothers, hresult, hfaultless⟩ :=
      Machine.writeAll_created (FileTree.ne_nil_of_writeTarget hplace) faults m
        (Buffer.batches #[] (Pixmap.chunks canvas))
    simp only [bind, StateT.bind, hcreate, hall]
    cases result with
    | error e =>
      refine ⟨tree, hothers, Or.inl ⟨e, rfl, fun hfaults => ?_⟩⟩
      by_contra hroom
      cases hfaultless hfaults hroom
    | ok done =>
      rw [flatten_batches_chunks] at hresult
      exact ⟨tree, hothers, Or.inr ⟨rfl, hresult rfl⟩⟩

/-- **Storing a canvas** where it can be stored: the file is in the tree, and the confirmation is printed. -/
theorem save_machine (h : m.tree.writeTarget m.workDir path = .ok place)
    (hroom : m.tree.find? place ≠ some (.device .full)) (canvas : Canvas) :
    ∃ tree, canvas.save Machine.host path m = (.ok (), { m with tree, output := m.output ++ savedLine path }) ∧
      ∀ other, tree.find? other = (m.tree.filled place (Pixmap.encode canvas)).find? other := by
  rcases save_spec {} m path canvas with ⟨e, -, hfaultless⟩ | ⟨place', hplace', tree, -, hdone⟩
  · cases h.symm.trans (hfaultless rfl)
  · obtain rfl : place = place' := Except.ok.inj (h.symm.trans hplace')
    rcases hdone with ⟨e, -, hfaultless⟩ | hsaved
    · exact absurd (hfaultless rfl) hroom
    · exact ⟨tree, hsaved⟩

end Canvas

end GlyphImage
