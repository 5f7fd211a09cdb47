import ScriptShell.Value.Basic

/-! # Values as tagged data

The form of a value that keeps all of it: an object with a field `t` for its kind and, for the kinds
that have content, a field `v` for that. -/

namespace ScriptShell

/-- A function of a module as data. -/
def NativeId.toJson (ref : NativeId) : Json :=
  .obj [("module", .str ref.module), ("name", .str ref.name)]

mutual

/-- A value as tagged data. -/
def Value.toTagged : Value → Json
  | .null => .obj [("t", .str "Null")]
  | .bool value => .obj [("t", .str "Bool"), ("v", .bool value)]
  | .num x => .obj [("t", .str "Num"), ("v", if x.isFinite then .float x else .null)]
  | .str text => .obj [("t", .str "Str"), ("v", .str text)]
  | .list items => .obj [("t", .str "List"), ("v", .arr (Value.listToTagged items))]
  | .obj fields => .obj [("t", .str "Obj"), ("v", .obj (Value.fieldsToTagged fields))]
  | .func ref =>
    .obj [("t", .str "Func"), ("v", .obj [("name", .str ref.name), ("unit", .nat ref.unit)])]
  | .native ref => .obj [("t", .str "Native"), ("v", ref.toJson)]
  | .module name => .obj [("t", .str "Module"), ("v", .str name)]
  | .pending target args =>
    .obj [("t", .str "Pending"), ("v", .obj
      [("target", target.toJson), ("args", .arr (Value.listToTagged args))])]

/-- Values as tagged data. -/
def Value.listToTagged : List Value → List Json
  | [] => []
  | value :: rest => value.toTagged :: Value.listToTagged rest

/-- Fields as tagged data. -/
def Value.fieldsToTagged : List (String × Value) → List (String × Json)
  | [] => []
  | (name, value) :: rest => (name, value.toTagged) :: Value.fieldsToTagged rest

end

end ScriptShell
