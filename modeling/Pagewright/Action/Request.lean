/-!
# Action requests

Data mutations on the server, called with arguments or with a submitted form.
-/

set_option autoImplicit false

namespace Pagewright

inductive FieldType where
  | string
  | number
  | boolean
  | email
  | unknown
  deriving DecidableEq, Repr

structure ActionField where
  name : String
  type : FieldType
  required : Bool
  deriving DecidableEq, Repr

structure ServerAction where
  name : String
  params : List ActionField
  body : String
  /-- Whether arguments are checked against a schema. -/
  validate : Bool
  revalidatePath : Option String
  deriving DecidableEq, Repr

structure FormAction where
  name : String
  fields : List ActionField
  body : String
  revalidatePath : Option String
  deriving DecidableEq, Repr

end Pagewright
