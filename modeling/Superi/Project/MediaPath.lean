import Superi.Graph.VersionText
import Superi.Lib.Delimited
import Superi.Lib.Walk
import Superi.Timeline.Media

/-!
# MediaPath — the targets of referenced media

A linked media reference keeps its target as text.  A filesystem target is a portable path below the
project or an absolute path of a declared platform.  It is written in a versioned form, and read
from that form or from a plain path of an older project.  Texts are lists of characters here.
-/

namespace Superi
namespace Project

open Core Result Graph Editorial

namespace MediaPath

def mediaError (category : ErrorCategory) (recoverability : Recoverability)
    (operation message : String) : Error :=
  (Error.new category recoverability message).withContext ⟨"superi-project.media", operation⟩

def invalidPath (operation message : String) : Error :=
  (mediaError .invalidInput .userCorrectable operation message).withContext
    ⟨"superi-project.media", operation⟩

def corruptTarget (message : String) : Error :=
  (mediaError .corruptData .userCorrectable "decode_media_path_target" message).withContext
    ⟨"superi-project.media", "decode_media_path_target"⟩

/-! ## Segments -/

/-- The segment that stands for the parent directory. -/
def parent : List Char := ['.', '.']

def isReservedWindowsDeviceName (value : List Char) : Bool :=
  decide (value ∈ ["CON", "PRN", "AUX", "NUL"].map String.toList) ||
    ["COM", "LPT"].any fun port =>
      (value.dropPrefix? port.toList).any fun suffix => decide (suffix ∈
        ["0", "1", "2", "3", "4", "5", "6", "7", "8", "9", "¹", "²", "³"].map String.toList)

def validatePortableSegment (segment : List Char) : Except Error Unit := do
  rejectIf (segment.any (fun c => isControl c || decide (c ∈ "<>:\"\\|?*".toList)) = true)
    (invalidPath "create_portable_relative_path"
      "portable media path contains a platform-specific or control character")
  rejectIf (segment.getLast? = some ' ' ∨ segment.getLast? = some '.')
    (invalidPath "create_portable_relative_path"
      "portable media path component must not end with a space or period")
  let deviceName := (((splitOnce '.' segment).map Prod.fst).getD segment).map Char.toUpper
  rejectIf (isReservedWindowsDeviceName deviceName = true)
    (invalidPath "create_portable_relative_path"
      "portable media path contains a reserved device name")

/-- One turn of the loop over the segments of a path. -/
def pushSegment (segments : List (List Char)) (segment : List Char) :
    Except Error (List (List Char)) :=
  if segment = [] ∨ segment = ['.'] then pure segments
  else if segment = parent then
    if (segments.getLast?.any fun last => decide (last ≠ parent)) = true then
      pure segments.dropLast
    else pure (segments ++ [segment])
  else do
    validatePortableSegment segment
    pure (segments ++ [segment])

def joinSegments (segments : List (List Char)) : List Char := ['/'].intercalate segments

/-- The segments a text names: the pieces between separators that are neither empty nor `.`. -/
def components (text : List Char) : List (List Char) :=
  (text.splitOn '/').filter fun segment => decide (segment ≠ [] ∧ segment ≠ ['.'])

/-- A segment the loop keeps. -/
def IsSegment (segment : List Char) : Prop :=
  segment ≠ [] ∧ segment ≠ ['.'] ∧ '/' ∉ segment ∧
    (segment ≠ parent → validatePortableSegment segment = .ok ())

/-- The segments of a canonical path: steps up come first, and something is named. -/
structure CanonicalSegments (segments : List (List Char)) : Prop where
  nonempty : segments ≠ []
  reduced : Ascent.Reduced parent segments
  kept : ∀ segment ∈ segments, IsSegment segment

/-! ## What the loop computes -/

variable {segments pieces : List (List Char)} {segment : List Char}

/-- A step up is put on the stack. -/
theorem pushSegment_parent :
    pushSegment segments parent = .ok (Ascent.push parent segments parent) := by
  rw [pushSegment, if_neg (by decide), if_pos rfl, Ascent.push, if_pos rfl]
  cases hlast : segments.getLast? with
  | none =>
      rw [List.getLast?_eq_none_iff] at hlast
      rw [hlast]
      rfl
  | some top =>
      by_cases htop : top = parent
      · subst htop
        rfl
      · rw [Option.any_some, decide_eq_true htop, if_pos rfl]
        dsimp only
        rw [if_neg htop]
        rfl

/-- A portable name is put on the stack, and no other. -/
theorem pushSegment_eq_ok (hnonempty : segment ≠ []) (hcurrent : segment ≠ ['.'])
    {after : List (List Char)} : pushSegment segments segment = .ok after ↔
      (segment ≠ parent → validatePortableSegment segment = .ok ()) ∧
        Ascent.push parent segments segment = after := by
  by_cases hparent : segment = parent
  · rw [hparent, pushSegment_parent, Except.ok.injEq]
    exact (and_iff_right fun h => absurd rfl h).symm
  · rw [pushSegment, if_neg (not_or.2 ⟨hnonempty, hcurrent⟩), if_neg hparent, bind_eq_ok,
      Ascent.push_name hparent]
    constructor
    · rintro ⟨_, hvalid, hafter⟩
      exact ⟨fun _ => hvalid, pure_eq_ok.1 hafter⟩
    · rintro ⟨hvalid, hafter⟩
      exact ⟨(), hvalid hparent, pure_eq_ok.2 hafter⟩

/-- The loop accepts the pieces whose names are portable, and reduces those it keeps. -/
theorem foldlM_pushSegment_eq_ok {after : List (List Char)} :
    pieces.foldlM pushSegment segments = .ok after ↔
      (∀ segment ∈ pieces.filter fun segment => decide (segment ≠ [] ∧ segment ≠ ['.']),
        segment ≠ parent → validatePortableSegment segment = .ok ()) ∧
      (pieces.filter fun segment => decide (segment ≠ [] ∧ segment ≠ ['.'])).foldl
        (Ascent.push parent) segments = after := by
  induction pieces generalizing segments with
  | nil =>
      rw [List.foldlM_nil, pure_eq_ok]
      exact (and_iff_right fun _ h => absurd h List.not_mem_nil).symm
  | cons segment pieces ih =>
      rw [List.foldlM_cons, bind_eq_ok, List.filter_cons]
      by_cases hskip : segment = [] ∨ segment = ['.']
      · have hnot : decide (segment ≠ [] ∧ segment ≠ ['.']) = false := by
          rw [decide_eq_false_iff_not, not_and_or, not_not, not_not]
          exact hskip
        rw [hnot, if_neg Bool.false_ne_true, ← ih]
        simp only [pushSegment, if_pos hskip, pure_eq_ok, exists_eq_left']
      · rw [not_or] at hskip
        rw [decide_eq_true hskip, if_pos rfl, List.forall_mem_cons, List.foldl_cons]
        constructor
        · rintro ⟨next, hpush, hrest⟩
          obtain ⟨hvalid, rfl⟩ := (pushSegment_eq_ok hskip.1 hskip.2).1 hpush
          obtain ⟨hall, hafter⟩ := ih.1 hrest
          exact ⟨⟨hvalid, hall⟩, hafter⟩
        · rintro ⟨⟨hvalid, hall⟩, hafter⟩
          exact ⟨_, (pushSegment_eq_ok hskip.1 hskip.2).2 ⟨hvalid, rfl⟩, ih.2 ⟨hall, hafter⟩⟩

/-- The loop over a text reduces the segments it names, if their names are portable. -/
theorem readSegments_eq_ok {value : List Char} :
    (value.splitOn '/').foldlM pushSegment [] = .ok segments ↔
      (∀ segment ∈ components value, segment ≠ parent → validatePortableSegment segment = .ok ()) ∧
      Ascent.reduce parent (components value) = segments :=
  foldlM_pushSegment_eq_ok

/-- What the loop leaves is reduced, and consists of segments it kept. -/
theorem canonicalSegments_of_read {value : List Char}
    (h : (value.splitOn '/').foldlM pushSegment [] = .ok segments) (hnonempty : segments ≠ []) :
    CanonicalSegments segments := by
  obtain ⟨hvalid, rfl⟩ := readSegments_eq_ok.1 h
  refine ⟨hnonempty, Ascent.reduced_reduce, fun segment hmem => ?_⟩
  have hin := Ascent.mem_of_mem_reduce hmem
  have hpiece := List.mem_filter.1 hin
  rw [decide_eq_true_eq] at hpiece
  exact ⟨hpiece.2.1, hpiece.2.2, (Delimited.mem_splitOn hpiece.1).1, hvalid segment hin⟩

end MediaPath

open MediaPath

/-! ## Portable relative paths -/

/-- A canonical relative path with one syntax on every platform. -/
structure PortableRelativePath where
  text : List Char
  canonical : ∃ segments, CanonicalSegments segments ∧ text = joinSegments segments

namespace PortableRelativePath

@[ext] theorem ext {path path' : PortableRelativePath} (h : path.text = path'.text) :
    path = path' := by
  cases path
  cases path'
  cases h
  rfl

/-- Parse and canonicalize a portable relative path. -/
def new (value : List Char) : Except Error PortableRelativePath := do
  rejectIf (value = []) (invalidPath "create_portable_relative_path"
    "portable relative media path must not be empty")
  rejectIf (value.head? = some '/') (invalidPath "create_portable_relative_path"
    "portable relative media path must not have a root")
  match hsegments : (value.splitOn '/').foldlM pushSegment [] with
  | .error error => .error error
  | .ok segments =>
      if hnonempty : segments = [] then
        .error (invalidPath "create_portable_relative_path"
          "portable relative media path must identify a resource")
      else pure ⟨joinSegments segments, segments,
        canonicalSegments_of_read hsegments hnonempty, rfl⟩

end PortableRelativePath

/-! ## Absolute paths -/

/-- The filesystem syntax recorded with a host-absolute path. -/
inductive MediaPathPlatform
  | unix
  | windows
  deriving DecidableEq, Repr

namespace MediaPathPlatform

def code : MediaPathPlatform → String
  | .unix => "unix"
  | .windows => "windows"

def fromCode (code : List Char) : Option MediaPathPlatform :=
  if code = "unix".toList then some .unix
  else if code = "windows".toList then some .windows
  else none

end MediaPathPlatform

/-- The build target: its path syntax, and `Path::is_absolute` as its standard library has it. -/
structure Host where
  platform : MediaPathPlatform
  isAbsolute : List Char → Bool

namespace MediaPath

/-- The source looks at the first three bytes.  Those it accepts are single characters. -/
def isWindowsAbsolute (path : List Char) : Bool :=
  let driveAbsolute := match path with
    | drive :: ':' :: separator :: _ => drive.isAlpha && (separator == '/' || separator == '\\')
    | _ => false
  let uncAbsolute := ['\\', '\\'].isPrefixOf path || ['/', '/'].isPrefixOf path
  driveAbsolute || uncAbsolute

def isAbsoluteOn : MediaPathPlatform → List Char → Bool
  | .unix, path => path.head? == some '/'
  | .windows, path => isWindowsAbsolute path

/-- The text is an absolute path of the platform, without control characters. -/
def AbsoluteText (platform : MediaPathPlatform) (path : List Char) : Prop :=
  ¬ (path = [] ∨ path.any isControl = true) ∧ isAbsoluteOn platform path = true

def validateAbsoluteText (platform : MediaPathPlatform) (path : List Char) (operation : String) :
    Except Error Unit := do
  rejectIf (path = [] ∨ path.any isControl = true) (invalidPath operation
    "absolute media path must be nonempty and contain no control characters")
  rejectIf (isAbsoluteOn platform path = false) (invalidPath operation
    "absolute media path does not match its declared platform")

theorem validateAbsoluteText_eq_ok {platform : MediaPathPlatform} {path : List Char}
    {operation : String} {u : Unit} :
    validateAbsoluteText platform path operation = .ok u ↔ AbsoluteText platform path := by
  rw [validateAbsoluteText, bind_eq_ok]
  constructor
  · rintro ⟨_, hplain, habsolute⟩
    exact ⟨rejectIf_eq_ok.1 hplain, by simpa using rejectIf_eq_ok.1 habsolute⟩
  · rintro ⟨hplain, habsolute⟩
    exact ⟨(), rejectIf_eq_ok.2 hplain, rejectIf_eq_ok.2 (by simp [habsolute])⟩

end MediaPath

/-! ## Referenced paths -/

inductive ReferencedMediaPathKind
  | projectRelative (path : PortableRelativePath)
  | hostAbsolute (platform : MediaPathPlatform) (path : List Char)
      (valid : AbsoluteText platform path)

/-- One typed filesystem target retained by a linked media reference. -/
structure ReferencedMediaPath where
  kind : ReferencedMediaPathKind

namespace ReferencedMediaPath

def projectRelative (path : PortableRelativePath) : ReferencedMediaPath := ⟨.projectRelative path⟩

/-- An absolute path of a platform, once its text is checked. -/
def absolute (platform : MediaPathPlatform) (path : List Char) (operation : String) :
    Except Error ReferencedMediaPath :=
  match hvalid : validateAbsoluteText platform path operation with
  | .error error => .error error
  | .ok _ => pure ⟨.hostAbsolute platform path (validateAbsoluteText_eq_ok.1 hvalid)⟩

end ReferencedMediaPath

namespace MediaPath

def targetPrefix : List Char := "superi.media-path.v1:".toList

def targetNamespace : List Char := "superi.media-path.".toList

def decodeCurrentTarget (encoded : List Char) : Except Error ReferencedMediaPath :=
  match encoded.dropPrefix? "relative:".toList with
  | some path => ReferencedMediaPath.projectRelative <$> PortableRelativePath.new path
  | none =>
      match encoded.dropPrefix? "absolute:".toList with
      | some encoded => do
          let (code, path) ← okOr (splitOnce ':' encoded)
            (corruptTarget "absolute media path target is missing its platform or path")
          let platform ← okOr (MediaPathPlatform.fromCode code)
            (corruptTarget "absolute media path target has an unknown platform")
          ReferencedMediaPath.absolute platform path "decode_media_path_target"
      | none =>
          .error (corruptTarget "media path target has an unknown version-1 representation")

def hasUriScheme (value : List Char) : Bool :=
  match splitOnce ':' value with
  | none => false
  | some (scheme, _) =>
      match scheme with
      | [] => false
      | first :: rest =>
          first.isAlpha && rest.all fun c => c.isAlphanum || c == '+' || c == '-' || c == '.'

end MediaPath

namespace ReferencedMediaPath

/-- Decode the stable target format or a compatible legacy path.  Other locators are `none`. -/
def fromTarget (host : Host) (target : List Char) : Except Error (Option ReferencedMediaPath) :=
  match target.dropPrefix? targetPrefix with
  | some encoded => some <$> decodeCurrentTarget encoded
  | none =>
      if targetNamespace.isPrefixOf target then
        .error ((mediaError .unsupported .userCorrectable "decode_media_path_target"
          "media path target uses an unsupported format version").withContext
            ⟨"superi-project.media", "decode_media_path_target"⟩)
      else if host.isAbsolute target then
        some <$> absolute host.platform target "decode_legacy_absolute_path"
      else if hasUriScheme target then pure none
      else pure ((PortableRelativePath.new target).toOption.map projectRelative)

/-- The stable text of a path. -/
def toTarget (path : ReferencedMediaPath) : List Char :=
  match path.kind with
  | .projectRelative path => targetPrefix ++ ("relative:".toList ++ path.text)
  | .hostAbsolute platform path _ =>
      targetPrefix ++ ("absolute:".toList ++ (platform.code.toList ++ ':' :: path))

end ReferencedMediaPath

end Project
end Superi
