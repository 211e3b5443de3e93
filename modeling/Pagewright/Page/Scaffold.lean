import Pagewright.Code.Module

/-!
# Scaffolds

The modules that surround every page: what shows while it loads, what shows when
it fails, and the layout and style sheet of a whole project.
-/

set_option autoImplicit false

namespace Pagewright.Scaffold

def loading (options : Options) : PageModule where
  placement := .server
  imports := Imports.empty
  blocks := [.component {
    name := "Loading"
    returned := .fixed [
      "<div",
      "  " ++ (if options.utilityClasses then
        "className=\"flex min-h-[50vh] items-center justify-center\""
      else
        "style=\x7b\x7b display: \"flex\", minHeight: \"50vh\", alignItems: \"center\", " ++
          "justifyContent: \"center\" \x7d\x7d"),
      "  role=\"status\"",
      "  aria-live=\"polite\"",
      ">",
      "  <p>Loading...</p>",
      "</div>"] }]

def errorParameters : Parameters :=
  .fixed
    ("\x7b\n  error,\n  reset,\n\x7d: \x7b\n  error: Error & \x7b digest?: string \x7d;\n" ++
      "  reset: () => void;\n\x7d")
    "\x7b error, reset \x7d"

def error : PageModule where
  placement := .client
  imports := Imports.empty.addReact ["useEffect"]
  blocks := [.component {
    name := "PageError"
    parameters := errorParameters
    setup := [.effect "useEffect(() => \x7b\n  console.error(error);\n\x7d, [error]);"]
    returned := .fixed [
      "<div role=\"alert\">",
      "  <h2>Something went wrong</h2>",
      "  <button type=\"button\" onClick=\x7b() => reset()\x7d>",
      "    Try again",
      "  </button>",
      "</div>"] }]

def layoutImports (typeScript : Bool) : Imports :=
  let types :=
    if typeScript then (Imports.empty.addTypes ["Metadata"] "next").addTypes ["ReactNode"] "react"
    else Imports.empty
  types.addSideEffect "./globals.css"

def layout (title description : String) (typeScript : Bool) : PageModule where
  placement := .server
  imports := layoutImports typeScript
  blocks := [
    .metadata (Metadata.value {} title description),
    .component {
      name := "RootLayout"
      parameters := .fixed "\x7b children \x7d: \x7b children: ReactNode \x7d"
        "\x7b children \x7d"
      returned := .fixed [
        "<html lang=\"en\">",
        "  <body>\x7bchildren\x7d</body>",
        "</html>"] }]

def stylesheet (utilityClasses : Bool) : String :=
  if utilityClasses then "@tailwind base;\n@tailwind components;\n@tailwind utilities;\n"
  else
    "*,\n*::before,\n*::after \x7b\n  box-sizing: border-box;\n\x7d\n\n" ++
      "body \x7b\n  margin: 0;\n\x7d\n"

end Pagewright.Scaffold
