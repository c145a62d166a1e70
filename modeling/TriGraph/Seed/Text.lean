import TriGraph.Document.Json
import TriGraph.Files
import TriGraph.Seed.Document
import TriGraph.Yaml.Document

/-!
# Seeds as texts

A seed is written in YAML or in JSON, and the extension of a file's name tells in which.
-/

namespace TriGraph.Seed

/-! ## Errors -/

inductive Error where
  | unreadable (path : String) (fault : FileFault)
  | yaml
  | json
  | unsupportedFormat (path : String)
  | apply (e : Knowledge.Error)

def Error.message : Error → String
  | .unreadable path fault => s!"Failed to read {path}: " ++ fault.message
  | .yaml => "Invalid YAML seed"
  | .json => "Invalid JSON seed"
  | .unsupportedFormat path => s!"Unsupported seed format: {path} (expected .yaml, .yml or .json)"
  | .apply e => "Failed to apply seed: " ++ e.message

/-! ## Formats -/

inductive Format where
  | yaml
  | json
deriving DecidableEq, Repr

namespace Format

def ofName? : String → Option Format
  | "yaml" => some .yaml
  | "json" => some .json
  | _ => none

def ofPath? (path : String) : Option Format :=
  match (extension? path).map String.toLower with
  | some "yaml" => some .yaml
  | some "yml" => some .yaml
  | some "json" => some .json
  | _ => none

def deepest : Format → Nat
  | .yaml => 128
  | .json => 127

def document? (text : String) : Format → Option Document
  | .yaml => (Yaml.Tree.ofText? text).bind (Yaml.Tree.document? shape)
  | .json => ((Json.readLoosely text).map shape.narrow).filter Json.isMeaningful

def error : Format → Error
  | .yaml => .yaml
  | .json => .json

end Format

/-! ## Reading -/

def ofText (f : Format) (text : String) : Except Error Seed :=
  match ((f.document? text).filter fun d => d.depth ≤ f.deepest).bind ofDocument? with
  | some s => .ok s
  | none => .error f.error

def ofFile (path : String) (contents : Except FileFault ByteArray) : Except Error Seed :=
  match Format.ofPath? path with
  | none => .error (.unsupportedFormat path)
  | some f =>
    match contents with
    | .error fault => .error (.unreadable path fault)
    | .ok bytes =>
      match String.fromUTF8? bytes with
      | some text => ofText f text
      | none => .error (.unreadable path .notText)

end TriGraph.Seed
