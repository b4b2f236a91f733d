import Bundler.Diff
import Bundler.Fields
import Bundler.Source.Import

/-!
# Records from outside

Changes and import declarations can come from outside as fields, like settings. They are checked
field by field, and all fields at fault are reported.
-/

namespace Bundler

/-- A change from fields, or all fields at fault. -/
def Change.ofFields? (fields : Fields) : Except (List FieldFault) Change :=
  let index := fields.required "index" Value.toInteger
  let removed := fields.optional "removed" Value.toText? none
  let added := fields.optional "added" Value.toText? none
  match index, removed, added with
  | .ok index, .ok removed, .ok added => .ok { index, removed, added }
  | _, _, _ =>
    .error (Fields.fault "index" index ++ Fields.fault "removed" removed
      ++ Fields.fault "added" added)

/-- An offset into a text of the given length. A negative one is counted from the end, and one
before the start is the start. -/
def textOffset (length : Nat) (offset : Int) : Nat :=
  (if offset < 0 then offset + length else offset).toNat

/-- An import declaration of a text of the given length from fields, or all fields at fault. -/
def Source.Import.ofFields? (length : Nat) (fields : Fields) :
    Except (List FieldFault) Source.Import :=
  let specifier := fields.required "specifier" Value.toText
  let start := fields.required "start" Value.toInteger
  let stop := fields.required "end" Value.toInteger
  let line := fields.required "line" Value.toInteger
  match specifier, start, stop, line with
  | .ok specifier, .ok start, .ok stop, .ok line =>
    .ok ⟨specifier, textOffset length start, textOffset length stop, line.toNat⟩
  | _, _, _, _ =>
    .error (Fields.fault "specifier" specifier ++ Fields.fault "start" start
      ++ Fields.fault "end" stop ++ Fields.fault "line" line)

end Bundler
