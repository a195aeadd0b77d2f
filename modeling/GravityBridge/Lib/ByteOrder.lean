import GravityBridge.Lib.Reading

/-!
# The order of byte strings

Keys of a store are compared byte by byte. Strings with fronts of one length are
ordered by the fronts first and then by what follows them, and strings of one length
are ordered as the numbers they write.
-/

namespace GravityBridge.Lib.ByteOrder

open Lib.ByteString Lib.Digits Lib.Reading List

/-! ## Fronts -/

section

variable {α : Type*} [LinearOrder α] {front other : List α}

/-- A string that is long enough is compared by its front with one that is not longer. -/
theorem lt_iff_take_lt (long : other.length ≤ front.length) : front < other ↔
    front.take other.length < other := by
  have split := @append_lt_append_iff α _ (front.take other.length) other (front.drop other.length)
    [] (by simp [long])
  rw [take_append_drop, append_nil] at split
  rw [split, or_iff_left fun both => absurd both.2 (not_lt_nil _)]

theorem le_iff_le_take (long : front.length ≤ other.length) : front ≤ other ↔
    front ≤ other.take front.length := by
  rw [← not_lt, ← not_lt, lt_iff_take_lt long]

end

/-! ## Numbers -/

theorem value_append (base : Nat) (digits others : List Nat) :
    value base (digits ++ others) = value base digits * base ^ others.length + value base others := by
  induction others using List.reverseRecOn with
  | nil => simp
  | append_singleton others digit ih =>
    rw [← append_assoc, value_concat, ih, value_concat, length_append, length_singleton, pow_succ]
    ring

theorem uint_append (bytes others : Bytes) :
    uint (bytes ++ others) = uint bytes * 256 ^ others.length + uint others := by
  rw [uint, map_append, value_append, length_map]
  rfl

theorem uint_cons (byte : UInt8) (bytes : Bytes) :
    uint (byte :: bytes) = byte.toNat * 256 ^ bytes.length + uint bytes := by
  have single : uint [byte] = byte.toNat := by simp [uint, value]
  rw [← singleton_append, uint_append, single]

theorem uint_lt (bytes : Bytes) : uint bytes < 256 ^ bytes.length := by
  simpa [uint] using value_lt (toNat_lt_of_mem bytes)

/-- The bytes of the number that bytes write. -/
theorem bigEndian_uint (bytes : Bytes) :
    (bigEndian 256 bytes.length (uint bytes)).map UInt8.ofNat = bytes := by
  have written := bigEndian_value (toNat_lt_of_mem bytes)
  rw [length_map] at written
  rw [uint, written, map_ofNat_toNat]

section

variable {first second : Bytes}

theorem uint_injective (lengths : first.length = second.length) (same : uint first = uint second) :
    first = second := by
  rw [← bigEndian_uint first, same, lengths, bigEndian_uint]

theorem lt_iff_uint_lt (lengths : first.length = second.length) : first < second ↔
    uint first < uint second := by
  have order := bigEndian_bytes_lt_iff (uint_lt first) (lengths ▸ uint_lt second)
  rwa [bigEndian_uint, lengths, bigEndian_uint] at order

end

/-! ## Numbers of a fixed width -/

section

variable {bound width : Nat} {first second : Fin bound}

theorem fin_bytes_lt_iff (fits : bound ≤ 256 ^ width) :
    (bigEndian 256 width first.val).map UInt8.ofNat <
    (bigEndian 256 width second.val).map UInt8.ofNat ↔ first < second :=
  bigEndian_bytes_lt_iff (first.isLt.trans_le fits) (second.isLt.trans_le fits)

theorem fin_bytes_inj (fits : bound ≤ 256 ^ width) :
    (bigEndian 256 width first.val).map UInt8.ofNat =
    (bigEndian 256 width second.val).map UInt8.ofNat ↔ first = second :=
  ⟨fun same => Fin.ext (bigEndian_bytes_injective (first.isLt.trans_le fits)
    (second.isLt.trans_le fits) same), fun same => by rw [same]⟩

end

end GravityBridge.Lib.ByteOrder
