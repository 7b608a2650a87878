import Superi.Cache.Envelope

/-!
# EnvelopeLaws — an entry is read exactly as it was written

The checks on a header leave one header for each payload, and the length and the digest in it leave
one payload.  So the reader accepts nothing but what the writer writes, and a file under the wrong
path, or with damaged bytes, could only be accepted where two different texts have one digest.
-/

namespace Superi
namespace Cache

open Core Graph Result Bytes

variable {E : Type} {sha256 : List UInt8 → BitVec 256} {kind : EvaluationCacheEntryKind}
  {key : FrameCacheKey} {schema : DiskCacheValueSchema sha256}

theorem beBytes_eq (count value : Nat) : beBytes count value = big count value := rfl

/-! ## Headers -/

/-- A list of the length of a header is its nine fields. -/
theorem header_fields {header : List UInt8} (h : header.length = headerLen) :
    header = slice 0 8 header ++ (slice 8 4 header ++ (slice 12 1 header ++ (slice 13 3 header ++
      (slice 16 32 header ++ (slice 48 32 header ++ (slice 80 4 header ++ (slice 84 8 header ++
        slice 92 32 header))))))) := by
  have hend : header.drop 124 = [] := List.drop_eq_nil_of_le h.le
  have hlast := slice_append_drop 92 32 header
  rw [hend, List.append_nil] at hlast
  rw [hlast, slice_append_drop, slice_append_drop, slice_append_drop, slice_append_drop,
    slice_append_drop, slice_append_drop, slice_append_drop, slice_append_drop, List.drop_zero]

theorem length_entryMagic : entryMagic.length = 8 := by decide +kernel

theorem length_buildHeader (payload : List UInt8) :
    (buildHeader kind key schema payload).length = headerLen := by
  simp only [buildHeader, beBytes_eq, List.length_append, length_big, List.length_cons,
    List.length_nil, length_entryMagic, headerLen]

/-- Nine fields of the right lengths are the slices of what they make up. -/
theorem slices_eq {header magic revision kind reserved key digest schemaRevision length sum : List UInt8}
    (hlengths : magic.length = 8 ∧ revision.length = 4 ∧ kind.length = 1 ∧ reserved.length = 3 ∧
      key.length = 32 ∧ digest.length = 32 ∧ schemaRevision.length = 4 ∧ length.length = 8 ∧
      sum.length = 32) (hheader : header.length = headerLen) :
    header = magic ++ (revision ++ (kind ++ (reserved ++ (key ++ (digest ++ (schemaRevision ++
      (length ++ sum))))))) ↔
    slice 0 8 header = magic ∧ slice 8 4 header = revision ∧ slice 12 1 header = kind ∧
      slice 13 3 header = reserved ∧ slice 16 32 header = key ∧ slice 48 32 header = digest ∧
      slice 80 4 header = schemaRevision ∧ slice 84 8 header = length ∧ slice 92 32 header = sum := by
  have hslice : ∀ {start count : Nat}, start + count ≤ 124 → (slice start count header).length = count :=
    fun h => length_slice (h.trans hheader.ge)
  obtain ⟨h₁, h₂, h₃, h₄, h₅, h₆, h₇, h₈, h₉⟩ := hlengths
  constructor
  · intro heq
    obtain ⟨e₁, heq⟩ := List.append_inj ((header_fields hheader).symm.trans heq)
      ((hslice (by decide)).trans h₁.symm)
    obtain ⟨e₂, heq⟩ := List.append_inj heq ((hslice (by decide)).trans h₂.symm)
    obtain ⟨e₃, heq⟩ := List.append_inj heq ((hslice (by decide)).trans h₃.symm)
    obtain ⟨e₄, heq⟩ := List.append_inj heq ((hslice (by decide)).trans h₄.symm)
    obtain ⟨e₅, heq⟩ := List.append_inj heq ((hslice (by decide)).trans h₅.symm)
    obtain ⟨e₆, heq⟩ := List.append_inj heq ((hslice (by decide)).trans h₆.symm)
    obtain ⟨e₇, heq⟩ := List.append_inj heq ((hslice (by decide)).trans h₇.symm)
    obtain ⟨e₈, e₉⟩ := List.append_inj heq ((hslice (by decide)).trans h₈.symm)
    exact ⟨e₁, e₂, e₃, e₄, e₅, e₆, e₇, e₈, e₉⟩
  · rintro ⟨rfl, rfl, rfl, rfl, rfl, rfl, rfl, rfl, rfl⟩
    exact header_fields hheader

/-- A field holds a number exactly when it is written from it. -/
theorem value_slice_eq {bytes : List UInt8} {start count number : Nat}
    (h : start + count ≤ bytes.length) (hnumber : number < 256 ^ count) :
    value (slice start count bytes) = number ↔ slice start count bytes = big count number := by
  constructor
  · rintro rfl
    have hbig := big_value (slice start count bytes)
    rw [length_slice h] at hbig
    exact hbig.symm
  · intro heq
    rw [heq, value_big_of_lt hnumber]

/-- Three bytes none of which is set. -/
theorem reserved_eq {bytes : List UInt8} (h : bytes.length = 3) :
    ¬ bytes.any (fun byte => byte != 0) = true ↔ bytes = [0, 0, 0] := by
  obtain ⟨a, b, c, rfl⟩ := List.length_eq_three.1 h
  simp

/-- A header passes the checks for a payload of its length and digest exactly when it is the header
that is built for that payload. -/
theorem checkHeader_iff {header payload : List UInt8} (h : header.length = headerLen)
    (hpayload : payload.length < 256 ^ 8) :
    (checkHeader (E := E) kind key schema header = .ok () ∧
        value (slice 84 8 header) = payload.length ∧
        slice 92 32 header = beBytes 32 (sha256 payload).toNat) ↔
      header = buildHeader kind key schema payload := by
  have hbuild : buildHeader kind key schema payload = entryMagic ++
      (beBytes 4 persistentCacheFormatRevision ++ ([kindByte kind] ++ ([0, 0, 0] ++
        (beBytes 32 key.digest.toNat ++ (beBytes 32 schema.digest.toNat ++
          (beBytes 4 schema.revision.toNat ++ (beBytes 8 payload.length ++
            beBytes 32 (sha256 payload).toNat))))))) := by
    simp only [buildHeader, List.append_assoc]
  have hlength : 124 ≤ header.length := h.ge
  have hlengths : entryMagic.length = 8 ∧ (beBytes 4 persistentCacheFormatRevision).length = 4 ∧
      [kindByte kind].length = 1 ∧ ([0, 0, 0] : List UInt8).length = 3 ∧
      (beBytes 32 key.digest.toNat).length = 32 ∧ (beBytes 32 schema.digest.toNat).length = 32 ∧
      (beBytes 4 schema.revision.toNat).length = 4 ∧ (beBytes 8 payload.length).length = 8 ∧
      (beBytes 32 (sha256 payload).toNat).length = 32 := by
    simp only [length_entryMagic, beBytes_eq, length_big, List.length_cons, List.length_nil, and_self]
  have hrevision : schema.revision.toNat < 256 ^ 4 := schema.revision.toNat_lt
  rw [hbuild, slices_eq hlengths h]
  simp only [checkHeader, bind_eq_ok, rejectIf_eq_ok, exists_const, not_not,
    value_slice_eq (show 8 + 4 ≤ header.length by omega) (show persistentCacheFormatRevision < 256 ^ 4 by decide),
    value_slice_eq (show 80 + 4 ≤ header.length by omega) hrevision,
    value_slice_eq (show 84 + 8 ≤ header.length by omega) hpayload,
    reserved_eq (length_slice (show 13 + 3 ≤ header.length by omega)), ne_eq, and_assoc]
  exact Iff.rfl

/-! ## Entries -/

theorem readExact_eq_ok {count : Nat} {bytes front rest : List UInt8} {failure : Option E}
    {reason : String} : readExact count bytes failure reason = .ok (front, rest) ↔
      front.length = count ∧ bytes = front ++ rest := by
  unfold readExact
  split
  · rename_i hle
    rw [Except.ok.injEq, Prod.mk.injEq]
    constructor
    · rintro ⟨rfl, rfl⟩
      exact ⟨List.length_take_of_le hle, (List.take_append_drop count bytes).symm⟩
    · rintro ⟨rfl, rfl⟩
      exact ⟨List.take_left, List.drop_left⟩
  · rename_i hshort
    have hnone : ¬ (front.length = count ∧ bytes = front ++ rest) := by
      rintro ⟨rfl, rfl⟩
      exact hshort (List.length_append.symm ▸ Nat.le_add_right _ _)
    rw [iff_false_intro hnone, iff_false]
    split <;> exact nofun

/-- A payload is read exactly from its own entry. -/
theorem readPayload_eq_some {file : EntryFile E} {maxEntryBytes : UInt64} {payload : List UInt8} :
    readPayload file kind key schema maxEntryBytes = .ok (some payload) ↔
      file = .opened (buildHeader kind key schema payload ++ payload) none ∧
        payload.length ≤ maxEntryBytes.toNat := by
  cases file with
  | missing => exact ⟨nofun, fun h => nomatch h.1⟩
  | unopened source => exact ⟨nofun, fun h => nomatch h.1⟩
  | opened bytes failure =>
      rw [readPayload]
      constructor
      · intro h
        obtain ⟨⟨header, rest⟩, hheader, hchecked⟩ := bind_eq_ok.1 h
        obtain ⟨⟨⟩, hcheck, hbounded⟩ := bind_eq_ok.1 hchecked
        obtain ⟨⟨⟩, hbound, hread⟩ := bind_eq_ok.1 hbounded
        obtain ⟨⟨content, trailing⟩, hcontent, hends⟩ := bind_eq_ok.1 hread
        obtain ⟨⟨⟩, htrailing, hfailure⟩ := bind_eq_ok.1 hends
        obtain ⟨hlength, hbytes⟩ := readExact_eq_ok.1 hheader
        obtain ⟨hcount, hrest⟩ := readExact_eq_ok.1 hcontent
        rw [rejectIf_eq_ok, not_lt] at hbound
        rw [rejectIf_eq_ok, ne_eq, not_not] at htrailing
        cases failure with
        | some source => cases hfailure
        | none =>
            obtain ⟨⟨⟩, hdigest, hpayload⟩ := bind_eq_ok.1 hfailure
            rw [rejectIf_eq_ok, ne_eq, not_not] at hdigest
            cases hpayload
            have hfits : payload.length < 256 ^ 8 :=
              (hcount.trans_le hbound).trans_lt maxEntryBytes.toNat_lt
            have hbuild := (checkHeader_iff hlength hfits).1 ⟨hcheck, hcount.symm, hdigest⟩
            rw [hbytes, hrest, htrailing, List.append_nil, ← hbuild]
            exact ⟨rfl, hcount.trans_le hbound⟩
      · rintro ⟨hfile, hbound⟩
        cases hfile
        have hfits : payload.length < 256 ^ 8 := hbound.trans_lt maxEntryBytes.toNat_lt
        have hlength : (buildHeader kind key schema payload).length = headerLen :=
          length_buildHeader payload
        obtain ⟨hcheck, hcount, hdigest⟩ := (checkHeader_iff (E := E) hlength hfits).2 rfl
        refine bind_eq_ok.2 ⟨_, readExact_eq_ok.2 ⟨hlength, rfl⟩, ?_⟩
        refine bind_eq_ok.2 ⟨⟨⟩, hcheck, ?_⟩
        refine bind_eq_ok.2 ⟨⟨⟩, rejectIf_eq_ok.2 (not_lt.2 (hcount.trans_le hbound)), ?_⟩
        refine bind_eq_ok.2 ⟨(payload, []), readExact_eq_ok.2 ⟨hcount.symm, by rw [List.append_nil]⟩, ?_⟩
        refine bind_eq_ok.2 ⟨⟨⟩, rejectIf_eq_ok.2 (not_not.2 rfl), ?_⟩
        exact bind_eq_ok.2 ⟨⟨⟩, rejectIf_eq_ok.2 (not_not.2 hdigest), rfl⟩

theorem opened_ne_none {bytes : List UInt8} {failure : Option E} {maxEntryBytes : UInt64} :
    readPayload (.opened bytes failure) kind key schema maxEntryBytes ≠ .ok none := by
  intro h
  rw [readPayload] at h
  obtain ⟨⟨header, rest⟩, -, hchecked⟩ := bind_eq_ok.1 h
  obtain ⟨⟨⟩, -, hbounded⟩ := bind_eq_ok.1 hchecked
  obtain ⟨⟨⟩, -, hread⟩ := bind_eq_ok.1 hbounded
  obtain ⟨⟨content, trailing⟩, -, hends⟩ := bind_eq_ok.1 hread
  obtain ⟨⟨⟩, -, hfailure⟩ := bind_eq_ok.1 hends
  cases failure with
  | some source => cases hfailure
  | none =>
      obtain ⟨⟨⟩, -, hnone⟩ := bind_eq_ok.1 hfailure
      cases hnone

theorem kindByte_injective {kind kind' : EvaluationCacheEntryKind} (h : kindByte kind = kindByte kind') :
    kind = kind' := by
  cases kind <;> cases kind' <;> first | rfl | exact absurd h (by decide)

/-- A field of 32 bytes determines the digest in it. -/
theorem digest_injective {digest digest' : BitVec 256}
    (h : beBytes 32 digest.toNat = beBytes 32 digest'.toNat) : digest = digest' := by
  have hvalue := congrArg value h
  rw [beBytes_eq, beBytes_eq, value_big_of_lt digest.isLt, value_big_of_lt digest'.isLt] at hvalue
  exact BitVec.eq_of_toNat_eq hvalue

/-- Equal headers are headers for one entry. -/
theorem buildHeader_inj {kind' : EvaluationCacheEntryKind} {key' : FrameCacheKey}
    {schema' : DiskCacheValueSchema sha256} {payload payload' : List UInt8}
    (h : buildHeader kind' key' schema' payload' = buildHeader kind key schema payload) :
    kind' = kind ∧ key' = key ∧ schema'.digest = schema.digest ∧
      sha256 payload' = sha256 payload := by
  simp only [buildHeader, List.append_assoc] at h
  have h₁ := List.append_cancel_left (List.append_cancel_left h)
  obtain ⟨hkind, h₂⟩ := List.append_inj h₁ rfl
  obtain ⟨hkey, h₃⟩ := List.append_inj (List.append_cancel_left h₂)
    (by rw [beBytes_eq, beBytes_eq, length_big, length_big])
  obtain ⟨hdigest, h₄⟩ := List.append_inj h₃ (by rw [beBytes_eq, beBytes_eq, length_big, length_big])
  obtain ⟨-, h₅⟩ := List.append_inj h₄ (by rw [beBytes_eq, beBytes_eq, length_big, length_big])
  obtain ⟨-, hsum⟩ := List.append_inj h₅ (by rw [beBytes_eq, beBytes_eq, length_big, length_big])
  refine ⟨kindByte_injective (List.cons.inj hkind).1, ?_, digest_injective hdigest,
    digest_injective hsum⟩
  cases key
  cases key'
  exact congrArg FrameCacheKey.mk (digest_injective hkey)

/-- Two different texts with one digest. -/
def Collides (sha256 : List UInt8 → BitVec 256) (left right : List UInt8) : Prop :=
  left ≠ right ∧ sha256 left = sha256 right

theorem utf8_injective {text text' : String} (h : utf8 text = utf8 text') : text = text' :=
  String.toByteArray_inj.1 (ByteArray.ext (Array.toList_inj.1 h))

/-- The text of a schema identity determines the schema. -/
theorem schemaBytes_injective {id id' : String} {revision revision' : UInt32}
    (h : schemaBytes id' revision' = schemaBytes id revision) : id' = id ∧ revision' = revision := by
  simp only [schemaBytes, List.append_assoc, beBytes_eq] at h
  have hbehind := List.append_cancel_left h
  have hnames := (List.append_inj hbehind (by rw [length_big, length_big])).2
  obtain ⟨hid, hrevision⟩ := List.append_inj' hnames (by rw [length_big, length_big])
  have hvalue := congrArg value hrevision
  rw [value_big_of_lt revision'.toNat_lt, value_big_of_lt revision.toNat_lt] at hvalue
  exact ⟨utf8_injective hid, UInt32.toNat_inj.1 hvalue⟩

/-- Two schemas of one digest are one, or their identities are different texts with one digest. -/
theorem DiskCacheValueSchema.eq_or_collides {schema' : DiskCacheValueSchema sha256}
    (hdigest : schema'.digest = schema.digest) : schema' = schema ∨
      Collides sha256 (schemaBytes schema'.id schema'.revision)
        (schemaBytes schema.id schema.revision) := by
  rw [schema'.derived, schema.derived] at hdigest
  by_cases hbytes : schemaBytes schema'.id schema'.revision = schemaBytes schema.id schema.revision
  · obtain ⟨hid, hrevision⟩ := schemaBytes_injective hbytes
    left
    cases schema
    cases schema'
    simp_all
  · exact .inr ⟨hbytes, hdigest⟩

/-- An entry that was written is read back, an accepted file is the entry of the requested kind, key
and schema with the payload that is returned, and none is accepted under another identity or with
other bytes behind its header, short of two texts with one digest. -/
theorem envelope_exact (E : Type) (sha256 : List UInt8 → BitVec 256)
    (kind : EvaluationCacheEntryKind) (key : FrameCacheKey) (schema : DiskCacheValueSchema sha256)
    (maxEntryBytes : UInt64) :
    (∀ payload : List UInt8, payload.length ≤ maxEntryBytes.toNat →
      readPayload (.opened (buildHeader kind key schema payload ++ payload) none : EntryFile E) kind key
        schema maxEntryBytes = .ok (some payload)) ∧
    (∀ (file : EntryFile E) (payload : List UInt8),
      readPayload file kind key schema maxEntryBytes = .ok (some payload) →
        file = .opened (buildHeader kind key schema payload ++ payload) none ∧
          payload.length ≤ maxEntryBytes.toNat) ∧
    (∀ file : EntryFile E, readPayload file kind key schema maxEntryBytes = .ok none →
      file = .missing) ∧
    ∀ (kind' : EvaluationCacheEntryKind) (key' : FrameCacheKey)
      (schema' : DiskCacheValueSchema sha256) (written behind payload : List UInt8),
      readPayload (.opened (buildHeader kind' key' schema' written ++ behind) none : EntryFile E) kind
        key schema maxEntryBytes = .ok (some payload) →
        kind' = kind ∧ key' = key ∧
          (schema' = schema ∨ Collides sha256 (schemaBytes schema'.id schema'.revision)
            (schemaBytes schema.id schema.revision)) ∧
          payload = behind ∧ (written = behind ∨ Collides sha256 written behind) := by
  refine ⟨fun payload hbound => readPayload_eq_some.2 ⟨rfl, hbound⟩,
    fun file payload h => readPayload_eq_some.1 h, ?_, ?_⟩
  · intro file h
    cases file with
    | missing => rfl
    | unopened source => cases h
    | opened bytes failure => exact absurd h opened_ne_none
  · intro kind' key' schema' written behind payload h
    obtain ⟨hfile, -⟩ := readPayload_eq_some.1 h
    have hbytes := (EntryFile.opened.inj hfile).1
    obtain ⟨hheader, hbehind⟩ := List.append_inj hbytes (by
      rw [length_buildHeader, length_buildHeader])
    obtain ⟨hkind, hkey, hschema, hdigest⟩ := buildHeader_inj hheader
    refine ⟨hkind, hkey, DiskCacheValueSchema.eq_or_collides hschema, hbehind.symm, ?_⟩
    by_cases hsame : written = behind
    · exact .inl hsame
    · exact .inr ⟨hsame, hbehind ▸ hdigest⟩

end Cache
end Superi
