import Pagewright.Script.Check
import Pagewright.Script.Print

/-!
# The formatter and the checker of scripts

Both read the module first. A module that does not read is not formatted, and that is
then its only issue. Files that are not scripts have no formatter and no issues.
-/

set_option autoImplicit false

namespace Pagewright.Script

def formatter : Formatter := fun source path =>
  match dialect? path with
  | none => .error (.unsupported path)
  | some dialect =>
    match Program.read dialect source with
    | some program => .ok program.print
    | none => .error (.malformed path none)

def checker : Checker := fun source path =>
  match dialect? path with
  | none => []
  | some dialect =>
    match Program.read dialect source with
    | some program => program.issues
    | none => [.malformed none]

end Pagewright.Script
