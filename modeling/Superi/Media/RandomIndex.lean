import Superi.Lib.Bytes
import Superi.Lib.Result

/-!
# RandomIndex — random index packs of MXF files

A KLV packet is a key of 16 bytes, a BER length and the value.  A random index pack lists where the
partitions lie, and ends with the length of the whole packet.  `usize` has 64 bits.

A packet is written with any BER form of its length.  The pack inside is accepted where its own
account of the packet's length takes that form to be one byte.
-/

namespace Superi
namespace Media

open Bytes

/-! ## Errors -/

structure ParseError where
  message : String
  offset : Nat
  deriving DecidableEq, Repr

/-- `checked_add` on `usize`. -/
def checkedUsize (value : Nat) : Option Nat :=
  if value < 18446744073709551616 then some value else none

/-- Read an optional value, or fail. -/
def required {α : Type} (value : Option α) (message : String) (offset : Nat) :
    Except ParseError α :=
  match value with
  | some a => .ok a
  | none => .error ⟨message, offset⟩

/-! ## Reading -/

structure Reader where
  cursor : Cursor
  baseOffset : Nat

abbrev Read (α : Type) := StateT Reader (Except ParseError) α

namespace Reader

def new (data : List UInt8) (baseOffset : Nat) : Reader := ⟨⟨data, 0⟩, baseOffset⟩

/-- The offset in the source, at most `usize::MAX`. -/
def position (reader : Reader) : Nat :=
  min (reader.baseOffset + reader.cursor.position) 18446744073709551615

def readArray (count : Nat) : Read (List UInt8) := fun reader => do
  let _ ← required (checkedUsize (reader.cursor.position + count)) "reader position overflowed"
    reader.position
  let (bytes, cursor) ← required (reader.cursor.take count) "structured value is truncated"
    reader.position
  pure (bytes, { reader with cursor })

def readU8 : Read UInt8 := (fun bytes => .ofNat (value bytes)) <$> readArray 1
def readU32 : Read UInt32 := (fun bytes => .ofNat (value bytes)) <$> readArray 4
def readU64 : Read UInt64 := (fun bytes => .ofNat (value bytes)) <$> readArray 8

/-- One more byte of a length. -/
def readBerDigit (length : Nat) : Read Nat := do
  let byte ← readU8
  let reader ← get
  liftM (required (checkedUsize (length * 256 + byte.toNat)) "BER length overflowed" reader.position)

/-- A length in short form, or in long form with up to eight bytes. -/
def readBerLength : Read Nat := do
  let first ← readU8
  if first &&& 0x80 = 0 then pure first.toNat
  else do
    let count := (first &&& 0x7f).toNat
    let reader ← get
    if count = 0 ∨ 8 < count then
      throw ⟨"BER length uses an unsupported form", reader.position - 1⟩
    else (List.range count).foldlM (fun length _ => readBerDigit length) 0

end Reader

/-! ## Packets -/

structure Klv where
  key : List UInt8
  valueOffset : Nat
  stop : Nat
  deriving DecidableEq, Repr

def parseKlv (data : List UInt8) (offset : Nat) : Except ParseError Klv := do
  let keyEnd ← required (checkedUsize (offset + 16)) "KLV key offset overflowed" offset
  let (key, _) ← required ((⟨data, offset⟩ : Cursor).take 16) "KLV key is truncated" offset
  let (length, reader) ← Reader.readBerLength.run (.new (data.drop keyEnd) keyEnd)
  let valueOffset := reader.position
  let stop ← required (checkedUsize (valueOffset + length)) "KLV byte range overflowed" offset
  if data.length < stop then .error ⟨"KLV value is truncated", valueOffset⟩
  else pure ⟨key, valueOffset, stop⟩

/-! ## Random index packs -/

structure RandomIndexEntry where
  bodySid : UInt32
  byteOffset : UInt64
  deriving DecidableEq, Repr

def ripPrefix : List UInt8 := [0x06, 0x0e, 0x2b, 0x34]
def ripSuffix : List UInt8 := [0x0d, 0x01, 0x02, 0x01, 0x01, 0x11, 0x01, 0x00]

def isRandomIndexPack (key : List UInt8) : Bool :=
  key.take 4 == ripPrefix && key.drop 8 == ripSuffix

def readRandomIndexEntry : Read RandomIndexEntry := do
  let bodySid ← Reader.readU32
  let byteOffset ← Reader.readU64
  pure { bodySid, byteOffset }

def parseRandomIndex (bytes : List UInt8) (valueOffset : Nat) :
    Except ParseError (List RandomIndexEntry) :=
  if bytes.length < 4 ∨ (bytes.length - 4) % 12 ≠ 0 then
    .error ⟨"random index pack has an invalid size", valueOffset⟩
  else do
    let (entries, reader) ← ((List.range ((bytes.length - 4) / 12)).mapM
      fun _ => readRandomIndexEntry).run (.new bytes valueOffset)
    let (declaredLength, reader) ← Reader.readU32.run reader
    -- the key, a length of one byte and the value
    let actualLength ← required (checkedUsize (bytes.length + 17)) "random index length overflowed"
      valueOffset
    if declaredLength.toNat ≠ actualLength then
      .error ⟨"random index pack length is inconsistent", reader.position - 4⟩
    else pure entries

/-- What the parser reads from the packet at `offset` when it is a random index pack. -/
def randomIndexAt (data : List UInt8) (offset : Nat) :
    Except ParseError (Option (List RandomIndexEntry)) := do
  let klv ← parseKlv data offset
  if isRandomIndexPack klv.key then
    some <$> parseRandomIndex (slice klv.valueOffset (klv.stop - klv.valueOffset) data)
      klv.valueOffset
  else pure none

/-! ## What a reader reads -/

namespace Reader

variable {α β : Type} {x : Read α} {f : α → Read β} {a : α} {b : β} {bytes more rest : List UInt8}
  {reader : Reader} {count : Nat}

/-- The reader stands in front of `rest`, in a source that fits the address space. -/
structure Ahead (reader : Reader) (rest : List UInt8) : Prop where
  cursor : reader.cursor.Ahead rest
  fits : reader.baseOffset + reader.cursor.data.length < 18446744073709551616

def advance (reader : Reader) (count : Nat) : Reader :=
  { reader with cursor := reader.cursor.advance count }

theorem advance_advance (reader : Reader) (first second : Nat) :
    (reader.advance first).advance second = reader.advance (first + second) := by
  simp only [advance, Cursor.advance, Nat.add_assoc]

@[simp] theorem advance_zero (reader : Reader) : reader.advance 0 = reader := rfl

theorem Ahead.advance (h : reader.Ahead (bytes ++ rest)) :
    (reader.advance bytes.length).Ahead rest :=
  ⟨h.cursor.advance rfl, h.fits⟩

theorem ahead_new {data : List UInt8} {baseOffset : Nat}
    (hfits : baseOffset + data.length < 18446744073709551616) :
    (new data baseOffset).Ahead data :=
  ⟨Cursor.ahead_start data, hfits⟩

theorem Ahead.position_eq (h : reader.Ahead rest) :
    reader.position = reader.baseOffset + reader.cursor.position := by
  have hle := h.cursor.position_le
  have hfits := h.fits
  exact Nat.min_eq_left (by omega)

theorem advances : Advances Ahead advance := ⟨advance_zero, advance_advance, Ahead.advance⟩

/-- In front of `bytes` the computation reads exactly these, and returns `a`. -/
abbrev Reads (x : Read α) (bytes : List UInt8) (a : α) : Prop := Bytes.Reads Ahead advance x bytes a

theorem reads_pure (a : α) : Reads (pure a) [] a := advances.pure a

theorem reads_bind (hx : Reads x bytes a) (hf : Reads (f a) more b) :
    Reads (x >>= f) (bytes ++ more) b :=
  advances.bind hx hf

theorem reads_readArray (hcount : bytes.length = count) : Reads (readArray count) bytes bytes := by
  intro reader rest h
  have hlength := congrArg List.length h.cursor.drop_eq
  have hle := h.cursor.position_le
  have hfits := h.fits
  rw [List.length_drop, List.length_append] at hlength
  have hchecked : checkedUsize (reader.cursor.position + count) =
      some (reader.cursor.position + count) := if_pos (by omega)
  simp only [readArray, StateT.run, hchecked, h.cursor.take hcount, required]
  rw [hcount]
  rfl

theorem reads_readU8 (byte : UInt8) : Reads readU8 [byte] byte := by
  have harray : Reads (readArray 1) [byte] [byte] := reads_readArray rfl
  have hread : Reads readU8 [byte] (UInt8.ofNat (value [byte])) := harray.map
  have hvalue : UInt8.ofNat (value [byte]) = byte := by
    rw [value_cons, value_nil, List.length_nil, Nat.pow_zero, Nat.mul_one, Nat.add_zero]
    exact UInt8.ofNat_toNat
  rwa [hvalue] at hread

theorem reads_readU32 (word : UInt32) : Reads readU32 (big 4 word.toNat) word := by
  have harray : Reads (readArray 4) (big 4 word.toNat) (big 4 word.toNat) :=
    reads_readArray (length_big 4 _)
  have hread : Reads readU32 (big 4 word.toNat) (UInt32.ofNat (value (big 4 word.toNat))) :=
    harray.map
  rwa [value_big_of_lt word.toNat_lt, UInt32.ofNat_toNat] at hread

theorem reads_readU64 (word : UInt64) : Reads readU64 (big 8 word.toNat) word := by
  have harray : Reads (readArray 8) (big 8 word.toNat) (big 8 word.toNat) :=
    reads_readArray (length_big 8 _)
  have hread : Reads readU64 (big 8 word.toNat) (UInt64.ofNat (value (big 8 word.toNat))) :=
    harray.map
  rwa [value_big_of_lt word.toNat_lt, UInt64.ofNat_toNat] at hread

/-! ## Lengths -/

theorem reads_readBerDigit {length : Nat} {byte : UInt8}
    (hfits : length * 256 + byte.toNat < 18446744073709551616) :
    Reads (readBerDigit length) [byte] (length * 256 + byte.toNat) := by
  intro reader rest h
  have hread : readU8.run reader = pure (byte, reader.advance 1) := reads_readU8 byte reader rest h
  have hchecked : checkedUsize (length * 256 + byte.toNat) = some (length * 256 + byte.toNat) :=
    if_pos hfits
  simp only [readBerDigit, StateT.run_bind, hread, pure_bind, StateT.run_get, hchecked, required]
  rfl

/-- The digits of a length, most significant first. -/
theorem reads_digits (places : List Nat) {length : Nat} (hplaces : places.length = bytes.length)
    (hfits : length * 256 ^ bytes.length + value bytes < 18446744073709551616) :
    Reads (places.foldlM (fun length _ => readBerDigit length) length) bytes
      (length * 256 ^ bytes.length + value bytes) := by
  induction bytes generalizing places length with
  | nil =>
      cases places with
      | nil =>
          rw [List.length_nil, Nat.pow_zero, Nat.mul_one, value_nil]
          exact reads_pure length
      | cons place places => cases hplaces
  | cons byte bytes ih =>
      cases places with
      | nil => cases hplaces
      | cons place places =>
          have hvalue : length * 256 ^ (byte :: bytes).length + value (byte :: bytes) =
              (length * 256 + byte.toNat) * 256 ^ bytes.length + value bytes := by
            rw [value_cons, List.length_cons, Nat.pow_succ]
            ring
          rw [hvalue] at hfits ⊢
          have hle : (length * 256 + byte.toNat) * 1 ≤
              (length * 256 + byte.toNat) * 256 ^ bytes.length :=
            Nat.mul_le_mul_left _ (Nat.one_le_pow _ _ (by decide))
          exact reads_bind (reads_readBerDigit (by omega)) (ih places (Nat.succ.inj hplaces) hfits)

end Reader

/-- A BER form of a length: one byte, or a byte that says how many bytes hold it. -/
inductive BerForm (length : Nat) : List UInt8 → Prop
  | short (h : length < 128) : BerForm length [UInt8.ofNat length]
  | long (count : Nat) (hpos : 0 < count) (hcount : count < 127) (h : length < 256 ^ count) :
      BerForm length (UInt8.ofNat (128 + count) :: big count length)

/-- The marker of the short form. -/
theorem and_marker_eq_zero {length : Nat} (h : length < 128) :
    UInt8.ofNat length &&& 0x80 = 0 ∧ (UInt8.ofNat length).toNat = length := by
  have hall : ∀ n : Fin 128, UInt8.ofNat n &&& 0x80 = 0 ∧ (UInt8.ofNat n).toNat = n := by
    decide +kernel
  exact hall ⟨length, h⟩

/-- The first byte of the long form. -/
theorem and_marker_long {count : Nat} (h : count < 127) :
    UInt8.ofNat (128 + count) &&& 0x80 ≠ 0 ∧ (UInt8.ofNat (128 + count) &&& 0x7f).toNat = count := by
  have hall : ∀ n : Fin 127, UInt8.ofNat (128 + n) &&& 0x80 ≠ 0 ∧
      (UInt8.ofNat (128 + n) &&& 0x7f).toNat = n := by
    decide +kernel
  exact hall ⟨count, h⟩

namespace Reader

variable {reader : Reader} {field rest : List UInt8} {length count : Nat}

/-- A length in short form. -/
theorem reads_shortLength (h : length < 128) :
    Reads readBerLength [UInt8.ofNat length] length := by
  intro reader rest hahead
  obtain ⟨hmarker, hvalue⟩ := and_marker_eq_zero h
  have hread : readU8.run reader = pure (UInt8.ofNat length, reader.advance 1) :=
    reads_readU8 _ reader rest hahead
  simp only [readBerLength, StateT.run_bind, hread, pure_bind, hmarker, if_true, hvalue]
  rfl

/-- A length in long form, over up to eight bytes. -/
theorem reads_longLength (hpos : 0 < count) (hcount : count ≤ 8) (h : length < 256 ^ count) :
    Reads readBerLength (UInt8.ofNat (128 + count) :: big count length) length := by
  intro reader rest hahead
  obtain ⟨hmarker, hdigits⟩ := and_marker_long (by omega : count < 127)
  have hread : readU8.run reader = pure (UInt8.ofNat (128 + count), reader.advance 1) :=
    reads_readU8 _ reader _ hahead
  have hahead' : reader.Ahead ([UInt8.ofNat (128 + count)] ++ (big count length ++ rest)) := hahead
  have hrest : Ahead (reader.advance 1) (big count length ++ rest) := hahead'.advance
  have hfits : 0 * 256 ^ (big count length).length + value (big count length) <
      18446744073709551616 := by
    rw [Nat.zero_mul, Nat.zero_add, value_big_of_lt h]
    exact lt_of_lt_of_le h (le_trans (Nat.pow_le_pow_right (by decide) hcount) (by decide))
  have hvalue := reads_digits (List.range count)
    (by rw [List.length_range, length_big]) hfits _ rest hrest
  rw [Nat.zero_mul, Nat.zero_add, value_big_of_lt h, advance_advance] at hvalue
  have hbound : ¬ (count = 0 ∨ 8 < count) := by omega
  simp only [readBerLength, StateT.run_bind, hread, pure_bind, hmarker, if_false, hdigits, hbound,
    StateT.run_get]
  rw [hvalue, List.length_cons, Nat.add_comm]

theorem reads_readBerLength (hform : BerForm length field) (hwidth : field.length ≤ 9) :
    Reads readBerLength field length := by
  cases hform with
  | short h => exact reads_shortLength h
  | long count hpos hcount h =>
      rw [List.length_cons, length_big] at hwidth
      exact reads_longLength hpos (by omega) h

/-- A length over more than eight bytes is refused. -/
theorem readBerLength_refuses (hcount : 8 < count) (hlt : count < 127)
    (hahead : reader.Ahead (UInt8.ofNat (128 + count) :: rest)) (result : Nat × Reader) :
    readBerLength.run reader ≠ .ok result := by
  obtain ⟨hmarker, hdigits⟩ := and_marker_long hlt
  have hread : readU8.run reader = pure (UInt8.ofNat (128 + count), reader.advance 1) :=
    reads_readU8 _ reader rest hahead
  have hbound : count = 0 ∨ 8 < count := .inr hcount
  simp only [readBerLength, StateT.run_bind, hread, pure_bind, hmarker, if_false, hdigits, hbound,
    StateT.run_get, if_true]
  exact fun h => by cases h

end Reader

/-! ## Packets -/

section Packets

variable {before key field contents after : List UInt8}

/-- Where a packet lies in its source. -/
structure Placed (data before key field contents after : List UInt8) : Prop where
  data_eq : data = before ++ (key ++ (field ++ (contents ++ after)))
  key_length : key.length = 16
  fits : data.length < 18446744073709551616

variable {data : List UInt8}

theorem Placed.length_eq (h : Placed data before key field contents after) : data.length =
    before.length + 16 + field.length + contents.length + after.length := by
  rw [h.data_eq]
  simp only [List.length_append, h.key_length]
  omega

/-- Behind the key the reader stands in front of the length. -/
theorem Placed.ahead_length (h : Placed data before key field contents after) :
    (Reader.new (data.drop (before.length + 16)) (before.length + 16)).Ahead
      (field ++ (contents ++ after)) := by
  have hlength := h.length_eq
  have hfits := h.fits
  have hdrop : data.drop (before.length + 16) = field ++ (contents ++ after) := by
    rw [h.data_eq, ← List.drop_drop, List.drop_left, ← h.key_length, List.drop_left]
  rw [hdrop]
  refine Reader.ahead_new ?_
  simp only [List.length_append]
  omega

/-- The key is found, and what follows it is left to the length. -/
theorem Placed.parseKlv_eq (h : Placed data before key field contents after) :
    parseKlv data before.length =
      (Reader.readBerLength.run (.new (data.drop (before.length + 16)) (before.length + 16)) >>=
        fun (length, reader) => do
          let stop ← required (checkedUsize (reader.position + length)) "KLV byte range overflowed"
            before.length
          if data.length < stop then .error ⟨"KLV value is truncated", reader.position⟩
          else pure ⟨key, reader.position, stop⟩) := by
  have hlength := h.length_eq
  have hfits := h.fits
  have hchecked : checkedUsize (before.length + 16) = some (before.length + 16) :=
    if_pos (by omega)
  have hahead : (⟨data, before.length⟩ : Cursor).Ahead (key ++ (field ++ (contents ++ after))) := by
    refine ⟨by change before.length ≤ data.length; omega, ?_⟩
    rw [h.data_eq, List.drop_left]
  simp only [parseKlv, hchecked, hahead.take h.key_length, required]
  rfl

/-- A packet with a length of up to nine bytes is found as it was written. -/
theorem parseKlv_placed (h : Placed data before key field contents after)
    (hread : Reader.Reads Reader.readBerLength field contents.length) :
    parseKlv data before.length = .ok ⟨key, before.length + 16 + field.length,
      before.length + 16 + field.length + contents.length⟩ := by
  have hlength := h.length_eq
  have hfits := h.fits
  have hahead := h.ahead_length
  have hposition := hahead.advance.position_eq
  have hvalue : ((Reader.new (data.drop (before.length + 16)) (before.length + 16)).advance
      field.length).position = before.length + 16 + field.length := by
    rw [hposition]
    change before.length + 16 + (0 + field.length) = _
    omega
  have hchecked : checkedUsize (before.length + 16 + field.length + contents.length) =
      some (before.length + 16 + field.length + contents.length) := if_pos (by omega)
  rw [h.parseKlv_eq, hread _ _ hahead]
  change (required (checkedUsize (Reader.position _ + _)) _ _ >>= _) = _
  rw [hvalue, hchecked]
  change (if data.length < before.length + 16 + field.length + contents.length then _ else _) = _
  rw [if_neg (by omega)]
  rfl

/-- Its value is what was written behind the length. -/
theorem Placed.slice_contents (h : Placed data before key field contents after) :
    slice (before.length + 16 + field.length)
      (before.length + 16 + field.length + contents.length - (before.length + 16 + field.length))
      data = contents := by
  have hcount : before.length + 16 + field.length + contents.length -
      (before.length + 16 + field.length) = contents.length := by omega
  rw [hcount, slice, h.data_eq, ← h.key_length, ← List.drop_drop, ← List.drop_drop, List.drop_left,
    List.drop_left, List.drop_left, List.take_left]

end Packets

/-! ## Entries -/

/-- An entry as it is written. -/
def RandomIndexEntry.bytes (entry : RandomIndexEntry) : List UInt8 :=
  big 4 entry.bodySid.toNat ++ big 8 entry.byteOffset.toNat

theorem length_entries (entries : List RandomIndexEntry) :
    (entries.flatMap RandomIndexEntry.bytes).length = 12 * entries.length := by
  induction entries with
  | nil => rfl
  | cons entry entries ih =>
      rw [List.flatMap_cons, List.length_append, ih, RandomIndexEntry.bytes, List.length_append,
        length_big, length_big, List.length_cons]
      omega

theorem reads_entry (entry : RandomIndexEntry) :
    Reader.Reads readRandomIndexEntry entry.bytes entry := by
  rw [RandomIndexEntry.bytes, ← List.append_nil (big 8 _)]
  refine Reader.reads_bind (Reader.reads_readU32 entry.bodySid) ?_
  refine Reader.reads_bind (Reader.reads_readU64 entry.byteOffset) ?_
  exact Reader.reads_pure entry

theorem reads_entries (places : List Nat) (entries : List RandomIndexEntry)
    (hplaces : places.length = entries.length) :
    Reader.Reads (places.mapM fun _ => readRandomIndexEntry)
      (entries.flatMap RandomIndexEntry.bytes) entries := by
  induction entries generalizing places with
  | nil =>
      cases places with
      | nil => exact Reader.reads_pure []
      | cons place places => cases hplaces
  | cons entry entries ih =>
      cases places with
      | nil => cases hplaces
      | cons place places =>
          rw [List.mapM_cons, List.flatMap_cons, ← List.append_nil (entries.flatMap _)]
          refine Reader.reads_bind (reads_entry entry) ?_
          refine Reader.reads_bind (ih places (Nat.succ.inj hplaces)) ?_
          exact Reader.reads_pure (entry :: entries)

/-- The pack is accepted where the length it ends with is that of a packet with a length of one
byte. -/
theorem parseRandomIndex_eq_ok {entries result : List RandomIndexEntry} {overall : UInt32}
    {valueOffset : Nat}
    (hfits : valueOffset + (12 * entries.length + 4) < 18446744073709551616)
    (hshort : 12 * entries.length + 21 < 18446744073709551616) :
    parseRandomIndex (entries.flatMap RandomIndexEntry.bytes ++ big 4 overall.toNat) valueOffset =
        .ok result ↔
      overall.toNat = 12 * entries.length + 21 ∧ result = entries := by
  have hlength : (entries.flatMap RandomIndexEntry.bytes ++ big 4 overall.toNat).length =
      12 * entries.length + 4 := by
    rw [List.length_append, length_entries, length_big]
  have hsize : ¬ (12 * entries.length + 4 < 4 ∨ (12 * entries.length + 4 - 4) % 12 ≠ 0) := by
    omega
  have hcount : (12 * entries.length + 4 - 4) / 12 = entries.length := by omega
  have hahead : (Reader.new (entries.flatMap RandomIndexEntry.bytes ++ big 4 overall.toNat)
      valueOffset).Ahead (entries.flatMap RandomIndexEntry.bytes ++ (big 4 overall.toNat ++ [])) := by
    rw [List.append_nil]
    exact Reader.ahead_new (by rw [hlength]; omega)
  have hentries := reads_entries (List.range entries.length) entries List.length_range _ _ hahead
  have hdeclared := Reader.reads_readU32 overall _ [] hahead.advance
  have hchecked : checkedUsize (12 * entries.length + 4 + 17) =
      some (12 * entries.length + 21) := if_pos (by omega)
  unfold parseRandomIndex
  rw [hlength, if_neg hsize, hcount, hentries]
  change ((Reader.readU32.run _) >>= _) = _ ↔ _
  rw [hdeclared]
  change ((required (checkedUsize (12 * entries.length + 4 + 17)) _ _) >>= _) = _ ↔ _
  rw [hchecked]
  change (if overall.toNat ≠ 12 * entries.length + 21 then _ else _) = _ ↔ _
  split
  · rename_i hne
    exact ⟨fun h => by (cases h), fun h => absurd h.1 hne⟩
  · rename_i heq
    constructor
    · intro h
      cases h
      exact ⟨not_not.1 heq, rfl⟩
    · rintro ⟨-, rfl⟩
      rfl

/-! ## The contract -/

/-- A random index pack as a writer puts it into a file: the length at its end is that of the whole
packet. -/
def randomIndexPack (key field : List UInt8) (entries : List RandomIndexEntry) : List UInt8 :=
  key ++ (field ++ (entries.flatMap RandomIndexEntry.bytes ++
    big 4 (16 + field.length + (12 * entries.length + 4))))

/-- A packet, with any bytes before and after it and any BER form of its length, is read as the
entries it was written from exactly where the form takes one byte. -/
theorem random_index_read_iff (before after : List UInt8) {key field : List UInt8}
    {entries : List RandomIndexEntry} (hkey : key.length = 16)
    (hpack : isRandomIndexPack key = true) (hform : BerForm (12 * entries.length + 4) field)
    (hoverall : 16 + field.length + (12 * entries.length + 4) < 4294967296)
    (hdata : (before ++ (randomIndexPack key field entries ++ after)).length <
      18446744073709551616) :
    randomIndexAt (before ++ (randomIndexPack key field entries ++ after)) before.length =
      .ok (some entries) ↔ field.length = 1 := by
  obtain ⟨overall, hword⟩ : ∃ overall : UInt32,
      overall.toNat = 16 + field.length + (12 * entries.length + 4) :=
    ⟨.ofNat _, UInt32.toNat_ofNat_of_lt' hoverall⟩
  obtain ⟨contents, hcontents⟩ : ∃ contents, contents =
      entries.flatMap RandomIndexEntry.bytes ++ big 4 overall.toNat := ⟨_, rfl⟩
  have hlength : contents.length = 12 * entries.length + 4 := by
    rw [hcontents, List.length_append, length_entries, length_big]
  obtain ⟨data, hdata_eq⟩ : ∃ data, data = before ++ (randomIndexPack key field entries ++ after) :=
    ⟨_, rfl⟩
  have hplaced : Placed data before key field contents after := by
    refine ⟨?_, hkey, hdata_eq ▸ hdata⟩
    rw [hdata_eq, hcontents, randomIndexPack, hword]
    simp only [List.append_assoc]
  rw [← hdata_eq]
  by_cases hwidth : field.length ≤ 9
  · have hfits := hplaced.length_eq ▸ hplaced.fits
    rw [randomIndexAt, parseKlv_placed hplaced (hlength ▸ Reader.reads_readBerLength hform hwidth)]
    change (if isRandomIndexPack key = true then some <$> parseRandomIndex (slice _ _ data) _
      else _) = _ ↔ _
    rw [if_pos hpack, hplaced.slice_contents, hcontents, Result.map_eq_ok]
    have hparse : ∀ result, parseRandomIndex
        (entries.flatMap RandomIndexEntry.bytes ++ big 4 overall.toNat)
        (before.length + 16 + field.length) = .ok result ↔
          overall.toNat = 12 * entries.length + 21 ∧ result = entries :=
      fun result => parseRandomIndex_eq_ok (by omega) (by omega)
    simp only [hparse]
    constructor
    · rintro ⟨result, ⟨hsame, rfl⟩, -⟩
      omega
    · intro hone
      exact ⟨entries, ⟨by omega, rfl⟩, rfl⟩
  · constructor
    · intro h
      rw [randomIndexAt, Result.bind_eq_ok] at h
      obtain ⟨klv, hklv, -⟩ := h
      rw [hplaced.parseKlv_eq, Result.bind_eq_ok] at hklv
      obtain ⟨result, hresult, -⟩ := hklv
      cases hform with
      | short h => exact absurd (Nat.succ_le_succ (Nat.zero_le 8)) hwidth
      | long count hpos hcount h =>
          rw [List.length_cons, length_big] at hwidth
          exact absurd hresult (Reader.readBerLength_refuses (by omega) hcount
            hplaced.ahead_length result)
    · intro hone
      omega

/-- The key of a random index pack. -/
def ripKey : List UInt8 := ripPrefix ++ [0x02, 0x05, 0x01, 0x01] ++ ripSuffix

theorem random_index_read_iff_one :
    randomIndexAt (randomIndexPack ripKey [16] [⟨1, 0⟩] ++ [0]) 0 = .ok (some [⟨1, 0⟩]) :=
  (@random_index_read_iff [] [0] ripKey [16] [⟨1, 0⟩] (by decide) (by decide) (.short (by decide))
    (by decide) (by decide)).2 rfl

/-- Eleven entries need a length of two bytes, and their packet is refused. -/
theorem eleven_entries_are_refused :
    ¬ ∀ (field : List UInt8) (entries : List RandomIndexEntry),
      BerForm (12 * entries.length + 4) field →
      16 + field.length + (12 * entries.length + 4) < 4294967296 →
      randomIndexAt (randomIndexPack ripKey field entries) 0 = .ok (some entries) := by
  intro h
  have hread := h [0x81, 136] (List.replicate 11 ⟨1, 0⟩)
    (.long 1 (by decide) (by decide) (by decide)) (by decide)
  exact absurd hread (by decide +kernel)

end Media
end Superi
