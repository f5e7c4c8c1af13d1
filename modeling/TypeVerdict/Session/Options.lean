import TypeVerdict.Markers

/-!
# Session options

What a session is told by its configuration.

## Main definitions

* `Options`: the options of one session
-/

namespace TypeVerdict

/-- The files that hold type tests unless the configuration says otherwise. -/
def defaultGlobs : List String := ["**/*.\x7btest,spec\x7d-d.?(c|m)[jt]s?(x)"]

/-- The options of one session. -/
structure Options where
  root : String := "."
  checker : String := "tsc"
  tsconfig? : Option String := none
  globs : List String := defaultGlobs
  allowJs : Bool := false
  watch : Bool := false
  markers : Markers := .standard

/-- The command line that starts the checker. -/
def Options.command (o : Options) (executable config : String) : List String :=
  [executable, "--noEmit", "--pretty", "false", "-p", config] ++
    (if o.watch then ["--watch"] else []) ++
    (if o.allowJs then ["--allowJs", "--checkJs"] else [])

end TypeVerdict
