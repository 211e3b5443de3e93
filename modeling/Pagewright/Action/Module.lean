import Pagewright.Action.Request
import Pagewright.Code.Module

/-!
# Action modules

A server module with one exported function. Arguments and form fields are checked
by a schema constant named after the action; the given body follows, and pages that
show the data are revalidated before the function returns.
-/

set_option autoImplicit false

namespace Pagewright

namespace FieldType

def scriptType : FieldType → String
  | .string => "string"
  | .email => "string"
  | .number => "number"
  | .boolean => "boolean"
  | .unknown => "unknown"

def schema (coerce : Bool) : FieldType → String
  | .string => "z.string()"
  | .email => "z.string().email()"
  | .number => if coerce then "z.coerce.number()" else "z.number()"
  | .boolean => if coerce then "z.coerce.boolean()" else "z.boolean()"
  | .unknown => "z.unknown()"

end FieldType

namespace Action

def directive : String := "\"use server\";"

def schemaName (action : String) : String := action ++ "Schema"

def schemaLine (coerce : Bool) (field : ActionField) : String :=
  let missing := if coerce then ".nullish()" else ".optional()"
  Text.indent 1 ++ Name.objectKey field.name ++ ": " ++ field.type.schema coerce ++
    (if field.required then "" else missing) ++ ","

def schemaBlock (action : String) (fields : List ActionField) (coerce : Bool) : String :=
  Text.unlines (("const " ++ schemaName action ++ " = z.object(\x7b") ::
    fields.map (schemaLine coerce) ++ ["\x7d);"])

def imports (validates revalidates : Bool) : Imports :=
  let cache := if revalidates then Imports.empty.addNamed ["revalidatePath"] "next/cache"
    else Imports.empty
  if validates then cache.addNamed ["z"] "zod" else cache

def revalidation (path : Option String) : List String :=
  path.toList.map fun p => "revalidatePath(" ++ Text.quoted p ++ ");"

def function (name parameters : String) (statements : List String) : String :=
  "export async function " ++ name ++ "(" ++ parameters ++ ") \x7b\n" ++
    Text.indentBlock 1 (Text.unlines statements) ++ "\n\x7d"

def bodyStatements (body : String) : List String :=
  let trimmed := Text.trim body
  if trimmed.isEmpty then [] else [trimmed]

end Action

namespace ServerAction

def validates (a : ServerAction) : Bool := a.validate && !a.params.isEmpty

def imports (a : ServerAction) : Imports := Action.imports a.validates a.revalidatePath.isSome

def parameter (typeScript : Bool) (p : ActionField) : String :=
  if typeScript then p.name ++ (if p.required then "" else "?") ++ ": " ++ p.type.scriptType
  else p.name

def statements (a : ServerAction) : List String :=
  let names := Text.join ", " (a.params.map ActionField.name)
  (if a.validates then
      ["const input = " ++ Action.schemaName a.name ++ ".parse(\x7b " ++ names ++ " \x7d);"]
    else []) ++
    Action.bodyStatements a.body ++ Action.revalidation a.revalidatePath ++
    (if !(Text.trim a.body).isEmpty then []
      else if a.validates then ["return \x7b success: true, data: input \x7d;"]
      else ["return \x7b success: true \x7d;"])

def render (typeScript : Bool) (a : ServerAction) : String :=
  assembleModule Action.directive a.imports.lines
    ((if a.validates then [Action.schemaBlock a.name a.params false] else []) ++
      [Action.function a.name (Text.join ", " (a.params.map (parameter typeScript))) a.statements])

end ServerAction

namespace FormAction

def validates (a : FormAction) : Bool := !a.fields.isEmpty

def parseLine (field : ActionField) : String :=
  Text.indent 1 ++ Name.objectKey field.name ++ ": formData.get(" ++ Text.quoted field.name ++ "),"

def dataStatements (a : FormAction) : List String :=
  if a.validates then [
    Text.unlines (("const parsed = " ++ Action.schemaName a.name ++ ".safeParse(\x7b") ::
      a.fields.map parseLine ++ ["\x7d);"]),
    "if (!parsed.success) \x7b\n" ++ Text.indent 1 ++
      "return \x7b success: false, errors: parsed.error.flatten().fieldErrors \x7d;\n\x7d",
    "const data = parsed.data;"]
  else ["const data = Object.fromEntries(formData);"]

def statements (a : FormAction) : List String :=
  a.dataStatements ++ Action.bodyStatements a.body ++ Action.revalidation a.revalidatePath ++
    ["return \x7b success: true, errors: \x7b\x7d, data \x7d;"]

def render (typeScript : Bool) (a : FormAction) : String :=
  assembleModule Action.directive (Action.imports a.validates a.revalidatePath.isSome).lines
    ((if a.validates then [Action.schemaBlock a.name a.fields true] else []) ++
      [Action.function a.name (if typeScript then "formData: FormData" else "formData")
        a.statements])

end FormAction

end Pagewright
