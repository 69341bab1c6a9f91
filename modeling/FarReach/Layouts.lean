import FarReach.Bytes

namespace Layouts

open Bytes

/-- How the values of one kind travel: `decode` reads at an offset of a buffer whose first `size` bytes count
and returns what arrives of the value, and the offset behind it. -/
structure Codec (α : Type*) where
  Valid : α → Prop
  encode : α → List UInt8
  decode : List UInt8 → Nat → Nat → Option (α × Nat)
  arrives : α → α
  decode_of_holds : ∀ {data off size value}, Valid value → Holds data off (encode value) →
    off + (encode value).length ≤ size → decode data off size = some (arrives value, off + (encode value).length)

/-- A value of a fixed number of bytes, copied without a look at the size. -/
def Codec.fixed {α : Type*} (width : Nat) (encode : α → List UInt8) (ofBytes : List UInt8 → α) (positive : 0 < width)
    (length_encode : ∀ value, (encode value).length = width)
    (ofBytes_encode : ∀ value, ofBytes (encode value) = value) :
    Codec α where
  Valid _ := True
  encode := encode
  decode data off _ := (readAt data off width).map fun bytes => (ofBytes bytes, off + width)
  arrives := id
  decode_of_holds := by
    intro data off size value _ holds _
    rw [holds.readAt (length_encode value) positive, Option.map_some, ofBytes_encode, length_encode]
    rfl

/-- Bytes of a fixed number that an encoder writes beside the fields. -/
structure Filler (ω : Type*) where
  size : Nat
  content : ω → List UInt8
  length_content : ∀ object, (content object).length = size

/-- One step of an encoder: it writes a field or a filler, or passes over bytes without writing them. -/
inductive Put {ι : Type*} (Value : ι → Type*) where
  | field (i : ι)
  | filler (fixed : Filler ((i : ι) → Value i))
  | gap (size : Nat)

/-- One step of a decoder: it reads a field or passes over bytes. -/
inductive Take (ι : Type*) where
  | field (i : ι)
  | skip (size : Nat)

variable {ι : Type*} {Value : ι → Type*}

section Encoder

variable (codec : (i : ι) → Codec (Value i)) (object : (i : ι) → Value i)

def Put.bytes : Put Value → List UInt8
  | .field i => (codec i).encode (object i)
  | .filler fixed => fixed.content object
  | .gap _ => []

def Put.size : Put Value → Nat
  | .field i => ((codec i).encode (object i)).length
  | .filler fixed => fixed.size
  | .gap size => size

/-- Write at the offset and move it on; nothing may be written behind the end of the buffer. -/
def Put.run (state : List UInt8 × Nat) (put : Put Value) : Option (List UInt8 × Nat) :=
  if state.2 + (put.bytes codec object).length ≤ state.1.length then
    some (overwrite state.1 state.2 (put.bytes codec object), state.2 + put.size codec object)
  else none

def putAll (puts : List (Put Value)) (state : List UInt8 × Nat) : Option (List UInt8 × Nat) :=
  puts.foldlM (Put.run codec object) state

def extent (puts : List (Put Value)) : Nat := (puts.map (Put.size codec object)).sum

/-- The buffer has at its offset what each step writes. -/
def Laid (data : List UInt8) : List (Put Value) → Nat → Prop
  | [], _ => True
  | put :: puts, off =>
    Holds data off (put.bytes codec object) ∧ Laid data puts (off + put.size codec object)

theorem Put.length_bytes_le (put : Put Value) : (put.bytes codec object).length ≤ put.size codec object := by
  cases put with
  | field i => exact le_refl _
  | filler fixed => exact (fixed.length_content object).le
  | gap size => exact Nat.zero_le _

variable {codec object}

theorem putAll_of_fits {puts : List (Put Value)} {array : List UInt8} {off : Nat}
    (fits : off + extent codec object puts ≤ array.length) :
    ∃ after, putAll codec object puts (array, off) = some (after, off + extent codec object puts) ∧
      after.length = array.length ∧ Laid codec object after puts off ∧
      ∀ pos bytes, pos + bytes.length ≤ off → Holds array pos bytes → Holds after pos bytes := by
  induction puts generalizing array off with
  | nil => exact ⟨array, rfl, rfl, trivial, fun _ _ _ holds => holds⟩
  | cons put puts ih =>
    have short := put.length_bytes_le codec object
    have total : extent codec object (put :: puts) = put.size codec object + extent codec object puts := by
      simp [extent]
    rw [total, ← Nat.add_assoc] at fits ⊢
    have room : off + (put.bytes codec object).length ≤ array.length := by omega
    obtain ⟨after, wrote, length, laid, kept⟩ := @ih (overwrite array off (put.bytes codec object))
      (off + put.size codec object) (by rw [length_overwrite]; exact fits)
    rw [length_overwrite] at length
    refine ⟨after, ?_, length, ⟨kept off _ (by omega) (holds_overwrite room), laid⟩, fun pos bytes before holds => ?_⟩
    · rw [putAll, List.foldlM_cons, Put.run, if_pos room]
      exact wrote
    · exact kept pos bytes (by omega) (holds.overwrite (Or.inl before))

end Encoder

section Decoder

def taken : List (Take ι) → List ι
  | [] => []
  | .field i :: takes => i :: taken takes
  | .skip _ :: takes => taken takes

theorem taken_cons (take : Take ι) (takes : List (Take ι)) : taken (take :: takes) = taken [take] ++ taken takes := by
  cases take <;> rfl

variable [DecidableEq ι] (codec : (i : ι) → Codec (Value i))

def Take.run (data : List UInt8) (size : Nat) (state : ((i : ι) → Value i) × Nat) :
    Take ι → Option (((i : ι) → Value i) × Nat)
  | .field i => ((codec i).decode data state.2 size).map fun read => (Function.update state.1 i read.1, read.2)
  | .skip size => some (state.1, state.2 + size)

def takeAll (data : List UInt8) (size : Nat) (takes : List (Take ι)) (state : ((i : ι) → Value i) × Nat) :
    Option (((i : ι) → Value i) × Nat) :=
  takes.foldlM (Take.run codec data size) state

/-- A decoder's step reads the field, or passes over the bytes, of an encoder's step. -/
def Take.Reads : Take ι → Put Value → Prop
  | .field i, .field j => i = j
  | .skip size, .filler fixed => fixed.size = size
  | .skip size, .gap gap => gap = size
  | _, _ => False

/-- A decoder goes along an encoder, perhaps not to its end. -/
def Follows : List (Take ι) → List (Put Value) → Prop
  | [], _ => True
  | _ :: _, [] => False
  | take :: takes, put :: puts => take.Reads put ∧ Follows takes puts

instance Take.decidableReads : (take : Take ι) → (put : Put Value) → Decidable (take.Reads put)
  | .field i, .field j => inferInstanceAs (Decidable (i = j))
  | .skip size, .filler fixed => inferInstanceAs (Decidable (fixed.size = size))
  | .skip size, .gap gap => inferInstanceAs (Decidable (gap = size))
  | .field _, .filler _ => inferInstanceAs (Decidable False)
  | .field _, .gap _ => inferInstanceAs (Decidable False)
  | .skip _, .field _ => inferInstanceAs (Decidable False)

instance decidableFollows : (takes : List (Take ι)) → (puts : List (Put Value)) → Decidable (Follows takes puts)
  | [], _ => inferInstanceAs (Decidable True)
  | _ :: _, [] => inferInstanceAs (Decidable False)
  | take :: takes, put :: puts =>
    have := decidableFollows takes puts
    inferInstanceAs (Decidable (take.Reads put ∧ Follows takes puts))

variable {codec} {object : (i : ι) → Value i} {data : List UInt8} {size : Nat}

theorem Take.run_of_reads {take : Take ι} {put : Put Value} {off : Nat} (state : (i : ι) → Value i)
    (reads : take.Reads put) (holds : Holds data off (put.bytes codec object))
    (room : off + put.size codec object ≤ size) (valid : ∀ i ∈ taken [take], (codec i).Valid (object i)) :
    ∃ next, take.run codec data size (state, off) = some (next, off + put.size codec object) ∧
      ∀ i, next i = if i ∈ taken [take] then (codec i).arrives (object i) else state i := by
  match take, put, reads with
  | .field i, .field _, rfl =>
    have decoded := (codec i).decode_of_holds (valid i (List.mem_singleton_self i)) holds room
    refine ⟨Function.update state i ((codec i).arrives (object i)), ?_, fun j => ?_⟩
    · simp only [Take.run, decoded, Option.map_some, Put.size]
    · by_cases same : j = i
      · subst same
        simp [taken]
      · simp [taken, same]
  | .skip _, .filler fixed, sized =>
    refine ⟨state, ?_, fun j => by simp [taken]⟩
    simp only [Take.run, Put.size]
    rw [show fixed.size = _ from sized]
  | .skip _, .gap gap, sized =>
    refine ⟨state, ?_, fun j => by simp [taken]⟩
    simp only [Take.run, Put.size]
    rw [show gap = _ from sized]

theorem takeAll_of_laid {takes : List (Take ι)} {puts : List (Put Value)} {off : Nat} (state : (i : ι) → Value i)
    (follows : Follows takes puts) (laid : Laid codec object data puts off)
    (room : off + extent codec object puts ≤ size) (valid : ∀ i ∈ taken takes, (codec i).Valid (object i)) :
    ∃ decoded last, takeAll codec data size takes (state, off) = some (decoded, last) ∧
      ∀ i, decoded i = if i ∈ taken takes then (codec i).arrives (object i) else state i := by
  induction takes generalizing puts off state with
  | nil => exact ⟨state, off, rfl, fun i => by simp [taken]⟩
  | cons take takes ih =>
    match puts, follows with
    | put :: puts, ⟨reads, rest⟩ =>
      have total : extent codec object (put :: puts) = put.size codec object + extent codec object puts := by
        simp [extent]
      rw [taken_cons] at valid ⊢
      have stepRoom : off + put.size codec object ≤ size := by omega
      obtain ⟨next, ran, read⟩ := Take.run_of_reads state reads laid.1 stepRoom
        fun i member => valid i (List.mem_append_left _ member)
      obtain ⟨decoded, last, ranAll, readAll⟩ := ih next rest laid.2 (by omega)
        fun i member => valid i (List.mem_append_right _ member)
      refine ⟨decoded, last, ?_, fun i => ?_⟩
      · rw [takeAll, List.foldlM_cons, ran]
        exact ranAll
      · rw [readAll i, read i]
        by_cases later : i ∈ taken takes
        · simp [later]
        · simp [later]

end Decoder

end Layouts
