import Mathlib

/-!
# Bytes — numbers in fixed fields, read from the front

A field of `count` bytes holds a number, most significant byte first.  What is written into a field
is read back modulo the size of the field, and a field is determined by the number it holds.

A cursor stands in front of the bytes it has not read.  Every read is described by what it takes
from there and what it leaves, for cursors and for any other state that stands in front of bytes.
-/

namespace Superi
namespace Bytes

/-- The low `count` bytes of a number, most significant first. -/
def big (count value : Nat) : List UInt8 :=
  (List.range count).reverse.map fun place => UInt8.ofNat (value / 256 ^ place)

/-- The number in a field. -/
def value (bytes : List UInt8) : Nat :=
  bytes.foldl (fun acc byte => 256 * acc + byte.toNat) 0

@[simp] theorem big_zero (v : Nat) : big 0 v = [] := rfl

theorem big_succ (count v : Nat) :
    big (count + 1) v = UInt8.ofNat (v / 256 ^ count) :: big count v := by
  rw [big, List.range_succ, List.reverse_append]
  rfl

@[simp] theorem length_big (count v : Nat) : (big count v).length = count := by
  rw [big, List.length_map, List.length_reverse, List.length_range]

theorem foldl_value (bytes : List UInt8) (acc : Nat) :
    bytes.foldl (fun acc byte => 256 * acc + byte.toNat) acc =
      acc * 256 ^ bytes.length + value bytes := by
  induction bytes generalizing acc with
  | nil => simp [value]
  | cons byte bytes ih =>
      rw [value, List.foldl_cons, List.foldl_cons, ih, ih, List.length_cons, Nat.pow_succ]
      ring

@[simp] theorem value_nil : value [] = 0 := rfl

theorem value_cons (byte : UInt8) (bytes : List UInt8) :
    value (byte :: bytes) = byte.toNat * 256 ^ bytes.length + value bytes := by
  rw [value, List.foldl_cons, foldl_value, Nat.mul_zero, Nat.zero_add]

theorem value_lt (bytes : List UInt8) : value bytes < 256 ^ bytes.length := by
  induction bytes with
  | nil => decide
  | cons byte bytes ih =>
      have hbyte : byte.toNat ≤ 255 := Nat.le_of_lt_succ byte.toNat_lt
      have hle := Nat.mul_le_mul_right (256 ^ bytes.length) hbyte
      rw [value_cons, List.length_cons, Nat.pow_succ]
      omega

/-- A number is read back modulo the size of the field. -/
theorem value_big (count v : Nat) : value (big count v) = v % 256 ^ count := by
  induction count with
  | zero => rw [big_zero, value_nil, Nat.pow_zero, Nat.mod_one]
  | succ count ih =>
      have hbyte : (UInt8.ofNat (v / 256 ^ count)).toNat = v / 256 ^ count % 256 :=
        UInt8.toNat_ofNat'
      rw [big_succ, value_cons, length_big, ih, hbyte, Nat.pow_succ, Nat.mod_mul, Nat.mul_comm]
      omega

theorem value_big_of_lt {count v : Nat} (h : v < 256 ^ count) : value (big count v) = v := by
  rw [value_big, Nat.mod_eq_of_lt h]

/-- A field is determined by the number in it. -/
theorem big_value (bytes : List UInt8) : big bytes.length (value bytes) = bytes := by
  induction bytes with
  | nil => rfl
  | cons byte bytes ih =>
      have hlt := value_lt bytes
      have hpos : 0 < 256 ^ bytes.length := Nat.pow_pos (by decide)
      have hbig : big bytes.length (byte.toNat * 256 ^ bytes.length + value bytes) =
          big bytes.length (value bytes) := by
        apply List.map_congr_left
        intro place hplace
        rw [List.mem_reverse, List.mem_range] at hplace
        obtain ⟨more, hmore⟩ := Nat.exists_eq_add_of_lt hplace
        have hpow : byte.toNat * 256 ^ bytes.length =
            256 ^ place * (256 * (byte.toNat * 256 ^ more)) := by
          rw [hmore, Nat.pow_succ, Nat.pow_add]
          ring
        rw [hpow, Nat.mul_add_div (Nat.pow_pos (by decide))]
        apply UInt8.toNat_inj.1
        rw [UInt8.toNat_ofNat', UInt8.toNat_ofNat']
        omega
      rw [List.length_cons, big_succ, value_cons, hbig, ih, Nat.mul_comm,
        Nat.mul_add_div hpos, Nat.div_eq_of_lt hlt, Nat.add_zero]
      exact congrArg (· :: bytes) (UInt8.ofNat_toNat)

/-! ## Slices -/

/-- The `length` bytes from `start` on. -/
def slice (start length : Nat) (bytes : List UInt8) : List UInt8 :=
  (bytes.drop start).take length

theorem slice_append_drop (start length : Nat) (bytes : List UInt8) :
    slice start length bytes ++ bytes.drop (start + length) = bytes.drop start := by
  rw [slice, ← List.drop_drop, List.take_append_drop]

theorem length_slice {start length : Nat} {bytes : List UInt8} (h : start + length ≤ bytes.length) :
    (slice start length bytes).length = length := by
  rw [slice, List.length_take, List.length_drop]
  omega

structure Cursor where
  data : List UInt8
  position : Nat

namespace Cursor

variable (cursor : Cursor)

/-- The cursor moved on. -/
def advance (count : Nat) : Cursor :=
  { cursor with position := cursor.position + count }

/-- The next `count` bytes, if there are so many. -/
def take (count : Nat) : Option (List UInt8 × Cursor) :=
  if cursor.position + count ≤ cursor.data.length then
    some (slice cursor.position count cursor.data, cursor.advance count)
  else none

/-- The cursor stands in front of `rest`. -/
structure Ahead (cursor : Cursor) (rest : List UInt8) : Prop where
  position_le : cursor.position ≤ cursor.data.length
  drop_eq : cursor.data.drop cursor.position = rest

variable {cursor} {bytes rest : List UInt8} {count : Nat}

@[simp] theorem advance_position (cursor : Cursor) (count : Nat) :
    (cursor.advance count).position = cursor.position + count := rfl

@[simp] theorem advance_data (cursor : Cursor) (count : Nat) :
    (cursor.advance count).data = cursor.data := rfl

theorem ahead_start (data : List UInt8) : Ahead ⟨data, 0⟩ data :=
  ⟨Nat.zero_le _, rfl⟩

theorem Ahead.advance (h : cursor.Ahead (bytes ++ rest)) (hcount : bytes.length = count) :
    (cursor.advance count).Ahead rest := by
  have hlength := congrArg List.length h.drop_eq
  have hle := h.position_le
  rw [List.length_drop, List.length_append] at hlength
  refine ⟨by rw [advance_position, advance_data]; omega, ?_⟩
  rw [advance_position, advance_data, ← List.drop_drop, h.drop_eq, ← hcount, List.drop_left]

/-- What is in front is taken. -/
theorem Ahead.take (h : cursor.Ahead (bytes ++ rest)) (hcount : bytes.length = count) :
    cursor.take count = some (bytes, cursor.advance count) := by
  have hlength := congrArg List.length h.drop_eq
  have hle := h.position_le
  rw [List.length_drop, List.length_append] at hlength
  rw [Cursor.take, if_pos (by omega), slice, h.drop_eq, ← hcount, List.take_left]

end Cursor

/-! ## Computations that read -/

section Reads

variable {ε σ α β : Type} {Ahead : σ → List UInt8 → Prop} {advance : σ → Nat → σ}
  {x : StateT σ (Except ε) α} {f : α → StateT σ (Except ε) β} {a : α} {b : β}
  {bytes more : List UInt8}

/-- In front of `bytes` the computation reads exactly these, and returns `a`. -/
def Reads (Ahead : σ → List UInt8 → Prop) (advance : σ → Nat → σ) (x : StateT σ (Except ε) α)
    (bytes : List UInt8) (a : α) : Prop :=
  ∀ s rest, Ahead s (bytes ++ rest) → x.run s = .ok (a, advance s bytes.length)

/-- Moving on over what is in front. -/
structure Advances (Ahead : σ → List UInt8 → Prop) (advance : σ → Nat → σ) : Prop where
  zero : ∀ s, advance s 0 = s
  add : ∀ s first second, advance (advance s first) second = advance s (first + second)
  ahead : ∀ {s bytes rest}, Ahead s (bytes ++ rest) → Ahead (advance s bytes.length) rest

theorem Advances.pure (h : Advances Ahead advance) (a : α) :
    Reads Ahead advance (Pure.pure a : StateT σ (Except ε) α) [] a := by
  intro s rest _
  rw [List.length_nil, h.zero]
  rfl

theorem Advances.bind (h : Advances Ahead advance) (hx : Reads Ahead advance x bytes a)
    (hf : Reads Ahead advance (f a) more b) :
    Reads Ahead advance (x >>= f) (bytes ++ more) b := by
  intro s rest hahead
  rw [List.append_assoc] at hahead
  have hrest := hf _ rest (h.ahead hahead)
  rw [StateT.run_bind, hx s (more ++ rest) hahead]
  change (f a).run (advance s bytes.length) = _
  rw [hrest, h.add, List.length_append]

theorem Reads.map {g : α → β} (hx : Reads Ahead advance x bytes a) :
    Reads Ahead advance (g <$> x) bytes (g a) := by
  intro s rest hahead
  rw [StateT.run_map, hx s rest hahead]
  rfl

end Reads

end Bytes
end Superi
