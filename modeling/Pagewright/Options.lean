/-!
# Options

What the generator is asked to produce. Lint is reserved and changes nothing.
-/

set_option autoImplicit false

namespace Pagewright

structure Options where
  /-- Emit type annotations and the matching file extensions. -/
  typeScript : Bool := true
  /-- Pages without interactive components render on the server. -/
  serverComponents : Bool := true
  /-- Turn styles into utility classes where one exists. -/
  utilityClasses : Bool := true
  /-- Run the formatter over emitted modules. -/
  format : Bool := true
  lint : Bool := false
  /-- Mark every element with the id of its component. -/
  componentIds : Bool := true
  /-- Check emitted modules for missing and repeated names. -/
  check : Bool := true
  deriving DecidableEq, Repr

namespace Options

def componentExtension (o : Options) : String := if o.typeScript then "tsx" else "jsx"

def scriptExtension (o : Options) : String := if o.typeScript then "ts" else "js"

def language (o : Options) : String := if o.typeScript then "typescript" else "javascript"

end Options

end Pagewright
