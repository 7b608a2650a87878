import Superi.Project.MediaPath

/-!
# MediaPathLaws — targets are lossless and canonical

A canonical path names its own segments, so it is read back as it is.  Reading a path reduces the
segments it names, and two readable texts that cancellation relates are one path.
-/

namespace Superi
namespace Project

open Core Result Graph Editorial MediaPath

/-! ## Portable relative paths -/

namespace MediaPath

variable {segments : List (List Char)}

/-- The segments of a joined path are the ones it was joined from. -/
theorem components_joinSegments (h : CanonicalSegments segments) :
    components (joinSegments segments) = segments := by
  rw [components, joinSegments,
    List.splitOn_intercalate _ (fun segment hmem => (h.kept segment hmem).2.2.1) h.nonempty,
    List.filter_eq_self]
  exact fun segment hmem => decide_eq_true ⟨(h.kept segment hmem).1, (h.kept segment hmem).2.1⟩

/-- A joined path begins with its first segment. -/
theorem joinSegments_head (h : CanonicalSegments segments) :
    joinSegments segments ≠ [] ∧ (joinSegments segments).head? ≠ some '/' := by
  cases segments with
  | nil => exact absurd rfl h.nonempty
  | cons first rest =>
      obtain ⟨hnonempty, -, hslash, -⟩ := h.kept first List.mem_cons_self
      cases first with
      | nil => exact absurd rfl hnonempty
      | cons c first =>
          have hjoin : ∃ more, joinSegments ((c :: first) :: rest) = c :: more := by
            cases rest with
            | nil => exact ⟨first, List.intercalate_singleton⟩
            | cons next rest => exact ⟨_, rfl⟩
          obtain ⟨more, hmore⟩ := hjoin
          rw [hmore]
          refine ⟨List.cons_ne_nil _ _, fun hhead => hslash ?_⟩
          rw [List.head?_cons, Option.some_inj] at hhead
          exact hhead ▸ List.mem_cons_self

end MediaPath

namespace PortableRelativePath

variable {value value' : List Char} {path path' : PortableRelativePath}

/-- What is read, and as what. -/
theorem new_eq_ok : new value = .ok path ↔
    (value ≠ [] ∧ value.head? ≠ some '/') ∧
      (∀ segment ∈ components value, segment ≠ parent → validatePortableSegment segment = .ok ()) ∧
      Ascent.reduce parent (components value) ≠ [] ∧
      path.text = joinSegments (Ascent.reduce parent (components value)) := by
  unfold new
  simp only [bind_eq_ok, rejectIf_eq_ok]
  constructor
  · rintro ⟨_, hvalue, _, hroot, hread⟩
    split at hread
    · cases hread
    · rename_i segments hsegments
      split at hread
      · cases hread
      · rename_i hnonempty
        cases hread
        obtain ⟨hvalid, rfl⟩ := readSegments_eq_ok.1 hsegments
        exact ⟨⟨hvalue, hroot⟩, hvalid, hnonempty, rfl⟩
  · rintro ⟨⟨hvalue, hroot⟩, hvalid, hnonempty, htext⟩
    refine ⟨(), hvalue, (), hroot, ?_⟩
    have hloop := readSegments_eq_ok.2 ⟨hvalid, rfl⟩
    split
    · rename_i error hfailed
      cases hfailed.symm.trans hloop
    · rename_i segments hsegments
      cases hsegments.symm.trans hloop
      rw [dif_neg hnonempty]
      exact congrArg Except.ok (PortableRelativePath.ext htext.symm)

/-- A canonical path is read back as it is. -/
theorem new_text : new path.text = .ok path := by
  obtain ⟨segments, hsegments, htext⟩ := path.canonical
  have hcomponents : components path.text = segments := htext ▸ components_joinSegments hsegments
  have hreduce := Ascent.reduce_of_reduced hsegments.reduced
  refine new_eq_ok.2 ⟨htext ▸ joinSegments_head hsegments, ?_, ?_, ?_⟩
  · rw [hcomponents]
    exact fun segment hmem => (hsegments.kept segment hmem).2.2.2
  · rw [hcomponents, hreduce]
    exact hsegments.nonempty
  · rw [hcomponents, hreduce, htext]

/-- The segments of the path that is read. -/
theorem components_of_new (h : new value = .ok path) :
    components path.text = Ascent.reduce parent (components value) := by
  obtain ⟨-, hvalid, hnonempty, htext⟩ := new_eq_ok.1 h
  rw [htext]
  exact components_joinSegments (canonicalSegments_of_read (readSegments_eq_ok.2 ⟨hvalid, rfl⟩)
    hnonempty)

/-- Two texts are read as one path when cancellation relates what they name, and only then. -/
theorem new_eq_iff (h : new value = .ok path) (h' : new value' = .ok path') :
    path = path' ↔
      Relation.EqvGen (Ascent.Cancels parent) (components value) (components value') := by
  rw [← Ascent.reduce_eq_iff]
  constructor
  · rintro rfl
    rw [← components_of_new h, components_of_new h']
  · intro hreduce
    obtain ⟨-, -, -, htext⟩ := new_eq_ok.1 h
    obtain ⟨-, -, -, htext'⟩ := new_eq_ok.1 h'
    exact PortableRelativePath.ext (by rw [htext, htext', hreduce])

end PortableRelativePath

/-! ## Targets -/

namespace MediaPath

theorem fromCode_code (platform : MediaPathPlatform) :
    MediaPathPlatform.fromCode platform.code.toList = some platform := by
  cases platform <;> decide

/-- No code has a colon, so the first colon ends it. -/
theorem splitOnce_code (platform : MediaPathPlatform) (path : List Char) :
    splitOnce ':' (platform.code.toList ++ ':' :: path) = some (platform.code.toList, path) :=
  splitOnce_append (by cases platform <;> decide)

/-- A relative target holds any spelling of its path. -/
theorem decode_relative (value : List Char) :
    decodeCurrentTarget ("relative:".toList ++ value) =
      ReferencedMediaPath.projectRelative <$> PortableRelativePath.new value := by
  rw [decodeCurrentTarget, Delimited.dropPrefix?_append]

theorem absolute_eq_ok {platform : MediaPathPlatform} {path : List Char}
    (valid : AbsoluteText platform path) (operation : String) :
    ReferencedMediaPath.absolute platform path operation =
      .ok ⟨.hostAbsolute platform path valid⟩ := by
  unfold ReferencedMediaPath.absolute
  split
  · rename_i error hfailed
    cases hfailed.symm.trans (validateAbsoluteText_eq_ok (u := ()).2 valid)
  · rfl

theorem decode_absolute {platform : MediaPathPlatform} {path : List Char}
    (valid : AbsoluteText platform path) :
    decodeCurrentTarget ("absolute:".toList ++ (platform.code.toList ++ ':' :: path)) =
      .ok ⟨.hostAbsolute platform path valid⟩ := by
  have hother : ("absolute:".toList ++ (platform.code.toList ++ ':' :: path)).dropPrefix?
      "relative:".toList = none := rfl
  rw [decodeCurrentTarget, hother]
  dsimp only
  rw [Delimited.dropPrefix?_append]
  dsimp only
  rw [splitOnce_code, okOr, bind_eq_ok]
  refine ⟨_, rfl, ?_⟩
  dsimp only
  rw [fromCode_code, okOr, bind_eq_ok]
  exact ⟨platform, rfl, absolute_eq_ok valid _⟩

end MediaPath

namespace ReferencedMediaPath

/-- A written target is read back as the path it was written from, on every host. -/
theorem fromTarget_toTarget (host : Host) (path : ReferencedMediaPath) :
    fromTarget host path.toTarget = .ok (some path) := by
  obtain ⟨kind⟩ := path
  cases kind with
  | projectRelative path =>
      rw [fromTarget, toTarget]
      dsimp only
      rw [Delimited.dropPrefix?_append]
      dsimp only
      rw [decode_relative, PortableRelativePath.new_text]
      rfl
  | hostAbsolute platform path valid =>
      rw [fromTarget, toTarget]
      dsimp only
      rw [Delimited.dropPrefix?_append]
      dsimp only
      rw [decode_absolute valid]
      rfl

/-- Different paths have different targets. -/
theorem toTarget_injective {path path' : ReferencedMediaPath}
    (h : path.toTarget = path'.toTarget) : path = path' := by
  have hback := fromTarget_toTarget ⟨.unix, fun _ => false⟩ path
  rw [h, fromTarget_toTarget] at hback
  exact (Option.some_inj.1 (Except.ok.inj hback)).symm

end ReferencedMediaPath

end Project
end Superi
