import Mathlib.Algebra.Group.Int.Defs
import Wapc.Host.ModuleState
import Wapc.Semantics.Window

/-!
# Guest memory seen from the host

A linear memory is a range of bytes inside the host's address space; addresses
here are relative to its first byte. The providers compute addresses from the
guest's 32-bit pointers with Rust's `as` casts, which extend the sign. The
wasmtime provider slices for reading and uses a raw pointer for writing; the
wasm3 provider slices for both.
-/

namespace Wapc.Provider

open Semantics

/-- A wasm32 linear memory and the address space around it. -/
structure Memory where
  size : Nat
  bounded : size ≤ 2 ^ 32
  cells : Space UInt8

namespace Memory

/-- Replace the bytes from an address on. -/
def write (memory : Memory) (address : Int) (bytes : Bytes) : Memory :=
  { memory with cells := memory.cells.write address bytes }

/-- The bytes of the region `[ptr, ptr + len)`, read as unsigned. -/
def region (memory : Memory) (ptr : I32) (len : Nat) : Bytes :=
  memory.cells.read ptr.toNat len

/-- The region lies inside the linear memory. -/
def Inside (memory : Memory) (ptr : I32) (len : Nat) : Prop :=
  ptr.toNat + len ≤ memory.size

instance (memory : Memory) (ptr : I32) (len : Nat) : Decidable (memory.Inside ptr len) :=
  inferInstanceAs (Decidable (_ ≤ _))

end Memory

/-- `value as usize` on a 64-bit host. -/
def asUsize (value : I32) : Nat := (value.signExtend 64).toNat

/-- `value as isize` on a 64-bit host. -/
def asIsize (value : I32) : Int := (value.signExtend 64).toInt

theorem asUsize_of_lt {value : I32} (small : value.toNat < 2 ^ 31) :
    asUsize value = value.toNat := by
  have sign : value.msb = false := by
    rw [BitVec.msb_eq_false_iff_two_mul_lt]
    omega
  have extended : asUsize value = _ := BitVec.toNat_signExtend value
  rw [sign] at extended
  simp only [BitVec.toNat_setWidth, Bool.false_eq_true, if_false] at extended
  omega

/-- A value with the sign bit becomes an address past every memory. -/
theorem lt_asUsize {value : I32} (large : 2 ^ 31 ≤ value.toNat) : 2 ^ 32 < asUsize value := by
  have sign : value.msb = true := by
    rw [BitVec.msb_eq_true_iff_two_mul_ge]
    omega
  have extended : asUsize value = _ := BitVec.toNat_signExtend value
  rw [if_pos sign] at extended
  omega

/-- An address inside a memory comes from a value without the sign bit. -/
theorem lt_of_asUsize_le {memory : Memory} {value : I32} (inside : asUsize value ≤ memory.size) :
    value.toNat < 2 ^ 31 := by
  by_contra large
  have past := lt_asUsize (Nat.le_of_not_lt large)
  have bounded := memory.bounded
  omega

theorem asIsize_of_lt {value : I32} (small : value.toNat < 2 ^ 31) :
    asIsize value = value.toNat := by
  rw [asIsize, BitVec.toInt_signExtend_of_le (by omega), BitVec.toInt_eq_toNat_of_lt (by omega)]

/-- A value with the sign bit becomes an address before the memory. -/
theorem asIsize_of_le {value : I32} (large : 2 ^ 31 ≤ value.toNat) :
    asIsize value = value.toNat - 2 ^ 32 := by
  rw [asIsize, BitVec.toInt_signExtend_of_le (by omega), BitVec.toInt_eq_toNat_cond]
  split <;> omega

/-- `get_vec_from_memory`. The addition is on `i32`: it panics on overflow in a
build with overflow checks and wraps in one without. -/
def getVecFromMemory (overflowChecks : Bool) (memory : Memory) (ptr len : I32) : Outcome Bytes :=
  if overflowChecks && ptr.saddOverflow len then .panicked
  else
    let start := asUsize ptr
    let stop := asUsize (ptr + len)
    if start ≤ stop ∧ stop ≤ memory.size then
      .returned (memory.cells.read start (stop - start))
    else .panicked

/-- `write_bytes_to_memory`: a raw copy, which nothing checks. -/
def writeBytesToMemory (memory : Memory) (ptr : I32) (slice : Bytes) : Memory :=
  memory.write (asIsize ptr) slice

/-- `write_bytes_to_memory` of the wasm3 provider: slicing checks the bounds. -/
def Wasm3.writeBytesToMemory (memory : Memory) (ptr : I32) (slice : Bytes) : Outcome Memory :=
  let start := asUsize ptr
  if start ≤ memory.size ∧ slice.length ≤ memory.size - start then
    .returned (memory.write start slice)
  else .panicked

/-- A region the wasmtime provider can read: it is inside the memory and ends
below `2 ^ 31`. -/
def Readable (memory : Memory) (ptr len : I32) : Prop :=
  memory.Inside ptr len.toNat ∧ ptr.toNat + len.toNat < 2 ^ 31

instance (memory : Memory) (ptr len : I32) : Decidable (Readable memory ptr len) :=
  inferInstanceAs (Decidable (_ ∧ _))

theorem getVecFromMemory_readable {memory : Memory} {ptr len : I32} (overflowChecks : Bool)
    (readable : Readable memory ptr len) :
    getVecFromMemory overflowChecks memory ptr len = .returned (memory.region ptr len.toNat) := by
  obtain ⟨inside, small⟩ := readable
  have sum : (ptr + len).toNat = ptr.toNat + len.toNat := by
    rw [BitVec.toNat_add]
    omega
  have start : asUsize ptr = ptr.toNat := asUsize_of_lt (by omega)
  have stop : asUsize (ptr + len) = (ptr + len).toNat := asUsize_of_lt (by omega)
  have fits : ptr.saddOverflow len = false := by
    unfold BitVec.saddOverflow
    rw [BitVec.toInt_eq_toNat_of_lt (by omega), BitVec.toInt_eq_toNat_of_lt (by omega)]
    simp only [Bool.or_eq_false_iff, decide_eq_false_iff_not]
    omega
  unfold Memory.Inside at inside
  simp only [getVecFromMemory, fits, Bool.and_false, Bool.false_eq_true, if_false]
  rw [start, stop, sum, if_pos ⟨by omega, inside⟩, Nat.add_sub_cancel_left]
  rfl

theorem getVecFromMemory_unreadable {memory : Memory} {ptr len : I32} (overflowChecks : Bool)
    (unreadable : ¬ Readable memory ptr len) :
    getVecFromMemory overflowChecks memory ptr len = .panicked := by
  unfold getVecFromMemory
  split
  · rfl
  · rename_i unchecked
    rw [if_neg]
    rintro ⟨ordered, inside⟩
    have stop := lt_of_asUsize_le inside
    have start : ptr.toNat < 2 ^ 31 := lt_of_asUsize_le (Nat.le_trans ordered inside)
    rw [asUsize_of_lt start, asUsize_of_lt stop] at ordered
    rw [asUsize_of_lt stop] at inside
    have sum : (ptr + len).toNat = (ptr.toNat + len.toNat) % 2 ^ 32 := BitVec.toNat_add ptr len
    exact unreadable ⟨by unfold Memory.Inside; omega, by omega⟩

/-- The regions that can be read are read exactly; on all others the host panics. -/
theorem getVecFromMemory_eq (overflowChecks : Bool) (memory : Memory) (ptr len : I32) :
    getVecFromMemory overflowChecks memory ptr len =
      if Readable memory ptr len then .returned (memory.region ptr len.toNat) else .panicked := by
  split
  · exact getVecFromMemory_readable overflowChecks ‹_›
  · exact getVecFromMemory_unreadable overflowChecks ‹_›

theorem getVecFromMemory_neverTraps (overflowChecks : Bool) (memory : Memory) (ptr len : I32) :
    (getVecFromMemory overflowChecks memory ptr len).NeverTraps := by
  rw [getVecFromMemory_eq]
  split
  · exact Outcome.neverTraps_returned _
  · exact Outcome.neverTraps_panicked

theorem readable_of_returned {overflowChecks : Bool} {memory : Memory} {ptr len : I32}
    {bytes : Bytes} (returned : getVecFromMemory overflowChecks memory ptr len = .returned bytes) :
    Readable memory ptr len := by
  rw [getVecFromMemory_eq] at returned
  split at returned
  · assumption
  · cases returned

/-- A pointer the raw write does not move: it has no sign bit. -/
theorem writeBytesToMemory_of_lt {memory : Memory} {ptr : I32} {slice : Bytes}
    (small : ptr.toNat < 2 ^ 31) :
    writeBytesToMemory memory ptr slice = memory.write ptr.toNat slice := by
  rw [writeBytesToMemory, asIsize_of_lt small]

/-- A raw write the sign extension does not move: its pointer has no sign bit, or
there is nothing to write. -/
theorem writeBytesToMemory_of_arrives {memory : Memory} {ptr : I32} {slice : Bytes}
    (arrives : slice = [] ∨ ptr.toNat < 2 ^ 31) :
    writeBytesToMemory memory ptr slice = memory.write ptr.toNat slice := by
  obtain rfl | small := arrives
  · simp [writeBytesToMemory, Memory.write]
  · exact writeBytesToMemory_of_lt small

/-- The raw write stays inside the linear memory. -/
def Memory.Holds (memory : Memory) (ptr : I32) (slice : Bytes) : Prop :=
  slice = [] ∨ 0 ≤ asIsize ptr ∧ asIsize ptr + slice.length ≤ memory.size

instance (memory : Memory) (ptr : I32) (slice : Bytes) : Decidable (memory.Holds ptr slice) :=
  inferInstanceAs (Decidable (_ ∨ _))

/-- A write that stays inside is not moved. -/
theorem Memory.Holds.arrives {memory : Memory} {ptr : I32} {slice : Bytes}
    (holds : memory.Holds ptr slice) : slice = [] ∨ ptr.toNat < 2 ^ 31 := by
  refine holds.imp_right fun ⟨start, _⟩ => ?_
  by_contra large
  have address := asIsize_of_le (Nat.le_of_not_lt large)
  have bounded := ptr.isLt
  omega

/-- In a region of the guest, a write that is not moved stays inside. -/
theorem Memory.holds_iff {memory : Memory} {ptr : I32} {slice : Bytes}
    (inside : memory.Inside ptr slice.length) :
    memory.Holds ptr slice ↔ slice = [] ∨ ptr.toNat < 2 ^ 31 := by
  refine ⟨Memory.Holds.arrives, fun arrives => arrives.imp_right fun small => ?_⟩
  unfold Memory.Inside at inside
  rw [asIsize_of_lt small]
  omega

/-- The checked write of the wasm3 provider. -/
theorem Wasm3.writeBytesToMemory_eq (memory : Memory) (ptr : I32) (slice : Bytes) :
    Wasm3.writeBytesToMemory memory ptr slice =
      if ptr.toNat < 2 ^ 31 ∧ memory.Inside ptr slice.length then
        .returned (memory.write ptr.toNat slice)
      else .panicked := by
  unfold Wasm3.writeBytesToMemory Memory.Inside
  by_cases small : ptr.toNat < 2 ^ 31
  · simp only [asUsize_of_lt small, small, true_and]
    by_cases inside : ptr.toNat + slice.length ≤ memory.size
    · rw [if_pos ⟨by omega, by omega⟩, if_pos inside]
    · rw [if_neg (by omega), if_neg inside]
  · have past := lt_asUsize (Nat.le_of_not_lt small)
    have bounded := memory.bounded
    simp only [small, false_and, if_false]
    rw [if_neg (by omega)]

end Wapc.Provider
