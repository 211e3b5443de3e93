import Pagewright.Digest.Sha256
import Pagewright.Options
import Pagewright.Text.Lines

/-!
# Emitted files

A file is a path with its content, the language its extension stands for and a
fingerprint of the content. Before it is emitted a module passes a formatter and a
checker, which are supplied. A formatter that fails leaves the module as it is, and
both only ever add warnings.
-/

set_option autoImplicit false

namespace Pagewright

inductive FileKind where
  | page
  | component
  | action
  | typeDeclaration
  | layout
  | scaffold
  | stylesheet
  deriving DecidableEq, Repr

def FileKind.name : FileKind → String
  | .page => "page"
  | .component => "component"
  | .action => "action"
  | .typeDeclaration => "type-declaration"
  | .layout => "layout"
  | .scaffold => "scaffold"
  | .stylesheet => "stylesheet"

structure Dialect where
  types : Bool
  markup : Bool
  deriving DecidableEq, Repr

def extension? (path : String) : Option String := Text.afterLast? '.' path

def dialect? (path : String) : Option Dialect :=
  match extension? path with
  | some "tsx" => some ⟨true, true⟩
  | some "ts" => some ⟨true, false⟩
  | some "jsx" => some ⟨false, true⟩
  | some "js" => some ⟨false, true⟩
  | _ => none

def languageOf (path : String) : String :=
  match extension? path with
  | some "css" => "css"
  | _ =>
    match dialect? path with
    | some d => if d.types then "typescript" else "javascript"
    | none => "text"

structure OutputFile where
  kind : FileKind
  path : String
  content : String
  language : String
  fingerprint : String
  deriving DecidableEq, Repr

def OutputFile.of (kind : FileKind) (path content : String) : OutputFile :=
  ⟨kind, path, content, languageOf path, Digest.sha256 content⟩

inductive FormatError where
  | malformed (path : String) (reason : Option String)
  | unsupported (path : String)
  deriving DecidableEq, Repr

def FormatError.message : FormatError → String
  | .malformed path none => path
  | .malformed path (some reason) => path ++ ": " ++ reason
  | .unsupported path => path ++ ": no formatter for this file type"

abbrev Formatter := String → String → Except FormatError String

inductive ModuleIssue where
  | malformed (reason : Option String)
  | duplicateBinding (name : String)
  | missingImport (name : String)
  deriving DecidableEq, Repr

def ModuleIssue.message : ModuleIssue → String
  | .malformed none => "syntax error"
  | .malformed (some reason) => "syntax error: " ++ reason
  | .duplicateBinding name => "`" ++ name ++ "` is bound more than once at module scope"
  | .missingImport name => "<" ++ name ++ "> is used but never imported or declared"

abbrev Checker := String → String → List ModuleIssue

structure Toolchain where
  options : Options
  formatter : Formatter
  checker : Checker

structure Draft where
  kind : FileKind
  path : String
  source : String
  deriving DecidableEq, Repr

structure Finished where
  file : OutputFile
  warnings : List String
  deriving DecidableEq, Repr

namespace Toolchain

def formatted (t : Toolchain) (d : Draft) : String × List String :=
  if t.options.format && (dialect? d.path).isSome then
    match t.formatter d.source d.path with
    | .ok content => (content, [])
    | .error e => (d.source, ["formatting skipped: " ++ e.message])
  else (d.source, [])

def checked (t : Toolchain) (path content : String) : List String :=
  if t.options.check then
    (t.checker content path).map fun issue => path ++ ": " ++ issue.message
  else []

def finish (t : Toolchain) (d : Draft) : Finished :=
  let (content, warnings) := t.formatted d
  ⟨OutputFile.of d.kind d.path content, warnings ++ t.checked d.path content⟩

end Toolchain

end Pagewright
