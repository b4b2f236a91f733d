import Bundler.Fields
import Bundler.Path

/-!
# Settings

A `Config` says what is bundled, where the text goes, and what is told about it. `Config.ofFields?`
checks settings that come from outside.
-/

namespace Bundler

/-- The extension of specifiers that have none of their own. -/
def defaultExtension : String := ".js"

/-- A dot and at least one character after it. -/
def isExtension (text : String) : Bool :=
  text.toList.head? == some '.' && 2 ≤ text.length

/-- The settings of a bundle run or a watch session. -/
structure Config where
  entry : Path
  output : Path
  watch : Bool := false
  diff : Bool := false
  extension : String := defaultExtension
  refreshWatches : Bool := true
deriving DecidableEq, Repr

/-- A text that is an extension. -/
def Value.toExtension (value : Value) : Except Problem String :=
  match value.toText with
  | .error problem => .error problem
  | .ok extension =>
    if isExtension extension then .ok extension else .error (.badExtension extension)

/-- Settings from fields, or all fields at fault. -/
def Config.ofFields? (fields : Fields) : Except (List FieldFault) Config :=
  let entry := fields.required "entry" Value.toText
  let output := fields.required "output" Value.toText
  let watch := fields.optional "watch" Value.toBool false
  let diff := fields.optional "diff" Value.toBool false
  let extension := fields.optional "extension" Value.toExtension defaultExtension
  let refreshWatches := fields.optional "refresh_watches" Value.toBool true
  match entry, output, watch, diff, extension, refreshWatches with
  | .ok entry, .ok output, .ok watch, .ok diff, .ok extension, .ok refreshWatches =>
    .ok { entry, output, watch, diff, extension, refreshWatches }
  | _, _, _, _, _, _ =>
    .error (Fields.fault "entry" entry ++ Fields.fault "output" output
      ++ Fields.fault "watch" watch ++ Fields.fault "diff" diff
      ++ Fields.fault "extension" extension ++ Fields.fault "refresh_watches" refreshWatches)

end Bundler
