import Eggserve.Rust.Text

/-! Media types by file extension. -/
namespace Eggserve.Static
open Rust

/-- The embedded table of extensions. -/
def mimeMap : List (String × String) :=
  [("html", "text/html; charset=utf-8"),
    ("htm", "text/html; charset=utf-8"),
    ("css", "text/css; charset=utf-8"),
    ("js", "application/javascript; charset=utf-8"),
    ("mjs", "application/javascript; charset=utf-8"),
    ("json", "application/json; charset=utf-8"),
    ("xml", "application/xml; charset=utf-8"),
    ("txt", "text/plain; charset=utf-8"),
    ("csv", "text/csv; charset=utf-8"),
    ("tsv", "text/tab-separated-values; charset=utf-8"),
    ("png", "image/png"),
    ("jpg", "image/jpeg"),
    ("jpeg", "image/jpeg"),
    ("gif", "image/gif"),
    ("svg", "image/svg+xml"),
    ("ico", "image/x-icon"),
    ("webp", "image/webp"),
    ("avif", "image/avif"),
    ("bmp", "image/bmp"),
    ("tiff", "image/tiff"),
    ("tif", "image/tiff"),
    ("woff", "font/woff"),
    ("woff2", "font/woff2"),
    ("ttf", "font/ttf"),
    ("otf", "font/otf"),
    ("eot", "application/vnd.ms-fontobject"),
    ("mp3", "audio/mpeg"),
    ("mp4", "video/mp4"),
    ("webm", "video/webm"),
    ("ogg", "audio/ogg"),
    ("wav", "audio/wav"),
    ("flac", "audio/flac"),
    ("aac", "audio/aac"),
    ("m4a", "audio/mp4"),
    ("zip", "application/zip"),
    ("gz", "application/gzip"),
    ("tar", "application/x-tar"),
    ("bz2", "application/x-bzip2"),
    ("xz", "application/x-xz"),
    ("zst", "application/zstd"),
    ("pdf", "application/pdf"),
    ("doc", "application/msword"),
    ("docx", "application/vnd.openxmlformats-officedocument.wordprocessingml.document"),
    ("xls", "application/vnd.ms-excel"),
    ("xlsx", "application/vnd.openxmlformats-officedocument.spreadsheetml.sheet"),
    ("ppt", "application/vnd.ms-powerpoint"),
    ("pptx", "application/vnd.openxmlformats-officedocument.presentationml.presentation"),
    ("wasm", "application/wasm"),
    ("manifest", "text/cache-manifest"),
    ("yaml", "text/yaml; charset=utf-8"),
    ("yml", "text/yaml; charset=utf-8"),
    ("toml", "text/plain; charset=utf-8"),
    ("ini", "text/plain; charset=utf-8"),
    ("md", "text/markdown; charset=utf-8"),
    ("rtf", "application/rtf")]

def lookupMime (extension : Str) : Option Str :=
  (mimeMap.find? fun entry => entry.1.toList = extension).map (·.2.toList)

/-- A second lookup in lower case, only when the first fails. -/
def mimeForExtension (extension : Str) : Option Str :=
  match lookupMime extension with
  | some value => some value
  | none =>
      if extension.any Char.isUpper then lookupMime (extension.map Char.toLower) else none

/-- `Path::extension` of a path of normal components: the text after the last
dot of the last component, unless that dot starts the name. -/
def extension (components : List Str) : Option Str :=
  match components.getLast? with
  | none => none
  | some name =>
      if name = ".." then none
      else
        let stem := (name.reverse.dropWhile (· ≠ '.')).tail
        if stem.isEmpty then none else some (name.reverse.takeWhile (· ≠ '.')).reverse

def mimeForPath (components : List Str) : Str :=
  ((extension components).bind mimeForExtension).getD "application/octet-stream"

theorem lookupMime_upper {extension : Str} (h : extension.any Char.isUpper = true) :
    lookupMime extension = none := by
  have hLower : ∀ entry ∈ mimeMap, (entry.1.toList.any Char.isUpper) = false := by decide +kernel
  rw [lookupMime, Option.map_eq_none_iff, List.find?_eq_none]
  intro entry hEntry hEq
  have hFalse := hLower entry hEntry
  rw [of_decide_eq_true hEq, h] at hFalse
  exact absurd hFalse (by decide)

/-- The table has lower-case keys, so the media type does not depend on the
case of the extension. -/
theorem mimeForExtension_toLower (extension : Str) :
    mimeForExtension extension = lookupMime (extension.map Char.toLower) := by
  cases hUpper : extension.any Char.isUpper with
  | true => simp [mimeForExtension, lookupMime_upper hUpper, hUpper]
  | false =>
      have hSame : extension.map Char.toLower = extension := by
        refine (List.map_congr_left fun c hc => ?_).trans (List.map_id extension)
        have hNot : ¬(c.val ≥ 'A'.val ∧ c.val ≤ 'Z'.val) :=
          fun hRange => List.any_eq_false.mp hUpper c hc (decide_eq_true hRange)
        exact dif_neg hNot
      rw [hSame, mimeForExtension]
      cases lookupMime extension <;> simp [hUpper]

end Eggserve.Static
