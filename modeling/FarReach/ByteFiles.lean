import FarReach.Bytes

namespace ByteFiles

open Bytes

/-- A file that is open for writing, and the position of the next write. -/
structure OpenFile where
  content : List UInt8
  position : Nat

/-- Open for writing: a file that exists is neither truncated nor removed, a missing one is created. -/
def openCreate (file : Option (List UInt8)) : OpenFile := ⟨file.getD [], 0⟩

def openTruncate (_ : Option (List UInt8)) : OpenFile := ⟨[], 0⟩

/-- A write replaces what lies under it and leaves what lies behind it. -/
def OpenFile.write (file : OpenFile) (bytes : List UInt8) : OpenFile :=
  ⟨file.content.take file.position ++ bytes ++ file.content.drop (file.position + bytes.length),
    file.position + bytes.length⟩

theorem OpenFile.write_at_end {file : OpenFile} (atEnd : file.position = file.content.length) (bytes : List UInt8) :
    file.write bytes = ⟨file.content ++ bytes, (file.content ++ bytes).length⟩ := by
  unfold write
  rw [atEnd, List.take_length, List.drop_of_length_le (by omega), List.append_nil, List.length_append]

variable {α : Type}

theorem OpenFile.content_foldl_write (encode : α → List UInt8) (records : List α) {file : OpenFile}
    (atEnd : file.position = file.content.length) :
    (records.foldl (fun file record => file.write (encode record)) file).content =
      file.content ++ records.flatMap encode := by
  induction records generalizing file with
  | nil => simp
  | cons record rest ih =>
    rw [List.foldl_cons, file.write_at_end atEnd, ih rfl, List.flatMap_cons, List.append_assoc]

def readMany (read : List UInt8 → Nat → Option (α × Nat)) (data : List UInt8) : Nat → Nat → Option (List α)
  | 0, _ => some []
  | count + 1, off => do
    let (record, next) ← read data off
    let rest ← readMany read data count next
    some (record :: rest)

variable {read : List UInt8 → Nat → Option (α × Nat)} {data : List UInt8}

theorem readMany_of_holds (encode : α → List UInt8) {records : List α} {off : Nat}
    (reads : ∀ record ∈ records, ∀ off, Holds data off (encode record) →
      off + (encode record).length ≤ data.length → read data off = some (record, off + (encode record).length))
    (holds : Holds data off (records.flatMap encode))
    (room : off + (records.flatMap encode).length ≤ data.length) :
    readMany read data records.length off = some records := by
  induction records generalizing off with
  | nil => rfl
  | cons record rest ih =>
    rw [List.flatMap_cons, List.length_append, ← Nat.add_assoc] at room
    rw [List.flatMap_cons, holds_append] at holds
    have first := reads record List.mem_cons_self off holds.1 (by omega)
    have later := ih (fun other member => reads other (List.mem_cons_of_mem record member)) holds.2 room
    simp only [List.length_cons, readMany, first, later, Option.bind_eq_bind, Option.bind_some]

theorem forall_mem_of_readMany {P : α → Prop}
    (each : ∀ off record next, read data off = some (record, next) → P record)
    {count off : Nat} {records : List α} (ran : readMany read data count off = some records) :
    ∀ record ∈ records, P record := by
  induction count generalizing off records with
  | zero =>
    cases ran
    simp
  | succ count ih =>
    unfold readMany at ran
    simp only [Option.bind_eq_bind, Option.bind_eq_some_iff, Option.some.injEq] at ran
    obtain ⟨⟨record, next⟩, first, rest, later, rfl⟩ := ran
    intro other member
    rcases List.mem_cons.mp member with rfl | inRest
    · exact each off other next first
    · exact ih later other inRest

theorem length_of_readMany {count off : Nat} {records : List α} (ran : readMany read data count off = some records) :
    records.length = count := by
  induction count generalizing off records with
  | zero =>
    cases ran
    rfl
  | succ count ih =>
    unfold readMany at ran
    simp only [Option.bind_eq_bind, Option.bind_eq_some_iff, Option.some.injEq] at ran
    obtain ⟨⟨record, next⟩, _, rest, later, rfl⟩ := ran
    rw [List.length_cons, ih later]

/-- Records of one width that all lie before a bound. -/
theorem end_le_of_readMany {width bound : Nat}
    (each : ∀ off record next, read data off = some (record, next) → next = off + width ∧ next ≤ bound)
    {count off : Nat} {records : List α} (ran : readMany read data count off = some records) (start : off ≤ bound) :
    off + width * count ≤ bound := by
  induction count generalizing off records with
  | zero => simpa using start
  | succ count ih =>
    unfold readMany at ran
    simp only [Option.bind_eq_bind, Option.bind_eq_some_iff, Option.some.injEq] at ran
    obtain ⟨⟨record, next⟩, first, rest, later, _⟩ := ran
    obtain ⟨rfl, inside⟩ := each off record next first
    have bounded := ih later inside
    rw [Nat.mul_succ]
    omega

end ByteFiles
