import Mathlib.Data.List.Basic

set_option autoImplicit true

/-- A C array `char name[size]`. -/
structure CharArray (size : Nat) where
  bytes : List UInt8
  length_eq : bytes.length = size

namespace CharArray

variable {size : Nat} {array array' : CharArray size} {data : List UInt8} {off n : Nat}

def zero : CharArray size := ⟨List.replicate size 0, List.length_replicate⟩

/-- A write from an index on, which must stay within the array. -/
def store (array : CharArray size) (off : Nat) (data : List UInt8) : Option (CharArray size) :=
  if h : off + data.length ≤ size then
    some ⟨array.bytes.take off ++ data ++ array.bytes.drop (off + data.length), by
      have hlen := array.length_eq
      simp only [List.length_append, List.length_take, List.length_drop]
      omega⟩
  else none

def load (array : CharArray size) (n : Nat) : Option (List UInt8) :=
  if n ≤ size then some (array.bytes.take n) else none

theorem store_ok (array : CharArray size) (h : off + data.length ≤ size) :
    ∃ array', array.store off data = some array' := by
  rw [store, dif_pos h]
  exact ⟨_, rfl⟩

theorem store_cases (h : array.store off data = some array') : off + data.length ≤ size ∧
    array'.bytes = array.bytes.take off ++ data ++ array.bytes.drop (off + data.length) := by
  rw [store] at h
  split at h
  · next hfit =>
    cases h
    exact ⟨hfit, rfl⟩
  · cases h

theorem store_nil (array : CharArray size) (h : off ≤ size) : array.store off [] = some array := by
  have hfit : off + ([] : List UInt8).length ≤ size := h
  rw [store, dif_pos hfit]
  cases array
  simp only [List.append_nil, List.length_nil, Nat.add_zero, List.take_append_drop]

theorem load_stored (h : array.store 0 data = some array') :
    array'.load data.length = some data := by
  obtain ⟨hfit, hbytes⟩ := store_cases h
  rw [load, if_pos (by omega), hbytes, List.take_zero, List.nil_append, List.take_left]

theorem load_kept (h : array.store off data = some array') (hn : n ≤ off) :
    array'.load n = array.load n := by
  obtain ⟨hfit, hbytes⟩ := store_cases h
  have hlen : n ≤ (array.bytes.take off).length := by
    rw [List.length_take, array.length_eq]
    omega
  rw [load, load, hbytes, List.append_assoc, List.take_append_of_le_length hlen, List.take_take,
    Nat.min_eq_left hn]

theorem get_stored (h : array.store off (c :: data) = some array') :
    array'.bytes[off]? = some c := by
  obtain ⟨hfit, hbytes⟩ := store_cases h
  have hlen : (array.bytes.take off).length = off := by
    rw [List.length_take, array.length_eq]
    rw [List.length_cons] at hfit
    omega
  rw [hbytes, List.append_assoc, List.getElem?_append_right (Nat.le_of_eq hlen), hlen,
    Nat.sub_self, List.cons_append, List.getElem?_cons_zero]

/-- Data that leaves room for a terminator is read back in front of it. -/
theorem store_terminated (array : CharArray size) (h : data.length < size) :
    ∃ array₁ array₂, array.store 0 data = some array₁ ∧
      array₁.store data.length [0] = some array₂ ∧ array₂.load data.length = some data ∧
      array₂.bytes[data.length]? = some 0 := by
  obtain ⟨array₁, h₁⟩ : ∃ array₁, array.store 0 data = some array₁ := array.store_ok (by omega)
  obtain ⟨array₂, h₂⟩ : ∃ array₂, array₁.store data.length [0] = some array₂ :=
    array₁.store_ok (by rw [List.length_singleton]; omega)
  refine ⟨array₁, array₂, h₁, h₂, ?_, get_stored h₂⟩
  rw [load_kept h₂ (Nat.le_refl _), load_stored h₁]

end CharArray
