import IotJs.Core.Module

/-!
# `IotJs.Core.ModulePackages`: the `package.json` of a package

What `resolveFilepath` of `module.js` makes of the file: `process.readSource` (`iotjs_file_read`),
`process.JSONParse` (`iotjs.js`), the property `main` of the value, and the text that it becomes in
`packagepath + "/" + pkgMainFile`. The engine's parser is outside; the file is given by the value
that it finds in it.
-/

set_option autoImplicit false

namespace IotJs

/-- A value of `JSON.parse`. A number is given by the text that it becomes, and no two fields of an
object have the same name. -/
inductive JsonValue where
  | null
  | boolean (b : Bool)
  | number (text : String)
  | string (text : String)
  | array (elements : List JsonValue)
  | object (fields : List (String × JsonValue))
deriving Repr

/-- The contents of a `package.json`. -/
inductive PackageSource where
  /-- the file cannot be opened -/
  | unreadable
  /-- the text is no JSON -/
  | malformed
  | parsed (value : JsonValue)
deriving Repr

namespace JsonValue

mutual

/-- The value as a string, or the exception. The engine calls `toString`, which a field of this name
hides, and no value of such a field can be called. -/
def toText : JsonValue → Except String String
  | null => .ok "null"
  | boolean b => .ok (if b then "true" else "false")
  | number text => .ok text
  | string text => .ok text
  | array elements => (elementTexts elements).map (String.intercalate ",")
  | object fields =>
      if (fields.lookup "toString").isSome then .error "TypeError" else .ok "[object Object]"

/-- The elements of an array, as `join` takes them. -/
def elementTexts : List JsonValue → Except String (List String)
  | [] => .ok []
  | null :: elements => (elementTexts elements).map ("" :: ·)
  | element :: elements =>
      match toText element with
      | .error message => .error message
      | .ok text => (elementTexts elements).map (text :: ·)

end

/-- `value.name`, where `none` is `undefined` -/
def property (name : String) : JsonValue → Except String (Option JsonValue)
  | null => .error "TypeError"
  | object fields => .ok (fields.lookup name)
  | _ => .ok none

end JsonValue

/-- What comes behind `packagepath + "/"`. -/
def PackageSource.main : PackageSource → Except String String
  -- IOTJS_ASSERT(file != NULL)
  | unreadable => .error "the process has ended"
  | malformed => .error "SyntaxError"
  | parsed value =>
      match value.property "main" with
      | .error message => .error message
      | .ok none => .ok "undefined"
      | .ok (some pkgMainFile) => pkgMainFile.toText

/-- The host with these contents of its files. -/
def ModuleHost.withPackages (H : ModuleHost) (contents : Nat → PackageSource) : ModuleHost :=
  { H with packageMain := fun file => (contents file).main }

end IotJs
