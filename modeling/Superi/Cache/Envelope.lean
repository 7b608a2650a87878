import Superi.Cache.Key
import Superi.Lib.Bytes

/-!
# Envelope — persistent cache entries as bytes

An entry is a header of 124 bytes and the payload behind it.  The header names what the entry is for
(retention tier, frame key and value schema) and carries the length and the digest of the payload.
The digest function is a parameter; what is said of it is only that equal bytes have equal digests.
-/

namespace Superi
namespace Cache

open Core Graph

/-- The bytes of a text. -/
def utf8 (text : String) : List UInt8 :=
  text.toUTF8.data.toList

def persistentCacheFormatRevision : Nat := 1
def entryMagic : List UInt8 := utf8 "SUPCACHE"
def headerLen : Nat := 124
def schemaDomain : List UInt8 := utf8 "superi.cache.disk-value-schema.v1" ++ [0]
def maxSchemaIdBytes : Nat := 128

/-! ## Schemas -/

def isLowercase (byte : UInt8) : Bool :=
  decide ('a'.toUInt8 ≤ byte) && decide (byte ≤ 'z'.toUInt8)

def isSchemaByte (byte : UInt8) : Bool :=
  isLowercase byte || (decide ('0'.toUInt8 ≤ byte) && decide (byte ≤ '9'.toUInt8)) ||
    byte == '_'.toUInt8 || byte == '-'.toUInt8

def validSchemaSegment : List UInt8 → Bool
  | [] => false
  | first :: others => isLowercase first && others.all isSchemaByte

/-- A lowercase namespace of bounded length. -/
def validSchemaId (id : String) : Bool :=
  let bytes := utf8 id
  !(bytes.isEmpty || decide (maxSchemaIdBytes < bytes.length) ||
    bytes.any (fun byte => decide (128 ≤ byte)) || !bytes.contains '.'.toUInt8) &&
    (bytes.splitOn '.'.toUInt8).all validSchemaSegment

/-- The bytes a schema digest is taken of. -/
def schemaBytes (id : String) (revision : UInt32) : List UInt8 :=
  schemaDomain ++ beBytes 8 (utf8 id).length ++ utf8 id ++ beBytes 4 revision.toNat

/-- The identity and revision of a caller-owned value encoding, with its digest. -/
structure DiskCacheValueSchema (sha256 : List UInt8 → BitVec 256) where
  id : String
  revision : UInt32
  digest : BitVec 256
  valid : validSchemaId id = true
  nonzero : revision ≠ 0
  derived : digest = sha256 (schemaBytes id revision)

/-! ## Entries -/

def kindByte : EvaluationCacheEntryKind → UInt8
  | .finalFrame => 1
  | .intermediateNode => 2

/-- What lies under an entry path.  The bytes of a file end, or the device fails behind them. -/
inductive EntryFile (E : Type)
  | missing
  | unopened (source : E)
  | opened (bytes : List UInt8) (failure : Option E)
  deriving DecidableEq

inductive ReadFault (E : Type)
  | invalid (category : ErrorCategory) (reason : String)
  | io (operation : String) (source : E)
  deriving DecidableEq

variable {E : Type} {sha256 : List UInt8 → BitVec 256}

/-- Read exactly `count` bytes, and leave the others. -/
def readExact (count : Nat) (bytes : List UInt8) (failure : Option E) (truncatedReason : String) :
    Except (ReadFault E) (List UInt8 × List UInt8) :=
  if count ≤ bytes.length then
    .ok (bytes.take count, bytes.drop count)
  else
    match failure with
    | none => .error (.invalid .corruptData truncatedReason)
    | some source => .error (.io "read_entry" source)

/-- The checks on a header, in order. -/
def checkHeader (kind : EvaluationCacheEntryKind) (key : FrameCacheKey)
    (schema : DiskCacheValueSchema sha256) (header : List UInt8) : Except (ReadFault E) Unit := do
  Result.rejectIf (Bytes.slice 0 8 header ≠ entryMagic) (.invalid .corruptData "invalid_magic")
  Result.rejectIf (Bytes.value (Bytes.slice 8 4 header) ≠ persistentCacheFormatRevision)
    (.invalid .unsupported "unsupported_format_revision")
  Result.rejectIf (Bytes.slice 12 1 header ≠ [kindByte kind]) (.invalid .corruptData "entry_kind_mismatch")
  Result.rejectIf ((Bytes.slice 13 3 header).any (fun byte => byte != 0) = true)
    (.invalid .unsupported "unsupported_header_flags")
  Result.rejectIf (Bytes.slice 16 32 header ≠ beBytes 32 key.digest.toNat)
    (.invalid .corruptData "entry_key_mismatch")
  Result.rejectIf (Bytes.slice 48 32 header ≠ beBytes 32 schema.digest.toNat)
    (.invalid .unsupported "value_schema_mismatch")
  Result.rejectIf (Bytes.value (Bytes.slice 80 4 header) ≠ schema.revision.toNat)
    (.invalid .unsupported "value_schema_revision_mismatch")

/-- The payload of a valid entry; none when there is no entry. -/
def readPayload (file : EntryFile E) (kind : EvaluationCacheEntryKind) (key : FrameCacheKey)
    (schema : DiskCacheValueSchema sha256) (maxEntryBytes : UInt64) :
    Except (ReadFault E) (Option (List UInt8)) :=
  match file with
  | .missing => .ok none
  | .unopened source => .error (.io "open_entry" source)
  | .opened bytes failure => do
      let (header, bytes) ← readExact headerLen bytes failure "truncated_header"
      checkHeader kind key schema header
      let payloadLen := Bytes.value (Bytes.slice 84 8 header)
      Result.rejectIf (maxEntryBytes.toNat < payloadLen) (.invalid .corruptData "payload_too_large")
      let (payload, trailing) ← readExact payloadLen bytes failure "truncated_payload"
      Result.rejectIf (trailing ≠ []) (.invalid .corruptData "trailing_payload_data")
      match failure with
      | some source => .error (.io "read_trailing_data" source)
      | none =>
          Result.rejectIf (Bytes.slice 92 32 header ≠ beBytes 32 (sha256 payload).toNat)
            (.invalid .corruptData "payload_digest_mismatch")
          .ok (some payload)

/-- The header of an entry; its fields follow one another at the offsets the reader uses. -/
def buildHeader (kind : EvaluationCacheEntryKind) (key : FrameCacheKey)
    (schema : DiskCacheValueSchema sha256) (payload : List UInt8) : List UInt8 :=
  entryMagic ++ beBytes 4 persistentCacheFormatRevision ++ [kindByte kind] ++ [0, 0, 0] ++
    beBytes 32 key.digest.toNat ++ beBytes 32 schema.digest.toNat ++
    beBytes 4 schema.revision.toNat ++ beBytes 8 payload.length ++
    beBytes 32 (sha256 payload).toNat

end Cache
end Superi
