import SqlSnippet.Journal

/-!
# The environment of a run

Some variables of the environment change how the program reports: which records it shows, whether
it gives details of a failure, and whether it leaves a failure to whoever called it.
-/

namespace SqlSnippet

/-- The variables that change how the program reports, where they are set. -/
structure Environment where
  verbose : Option Text
  debug : Option Text
  reraise : Option Text
  logLevel : Option Text
  deriving DecidableEq, Repr

namespace Environment

/-- An environment that sets nothing. -/
def empty : Environment :=
  ⟨none, none, none, none⟩

/-- The environment that sets variables, each known by its name, as a function tells. -/
def ofLookup (get? : String → Option Text) : Environment where
  verbose := get? "COMPLEXSQL_VERBOSE"
  debug := get? "COMPLEXSQL_DEBUG"
  reraise := get? "COMPLEXSQL_RERAISE"
  logLevel := get? "COMPLEXSQL_LOG_LEVEL"

/-- Whether a variable is set to a word of assent. -/
def isOn : Option Text → Bool
  | none => false
  | some s => String.ofList (Text.trim s).lower ∈ ["1", "true", "yes", "on"]

/-- Whether details of a failure are given, where a flag may ask for them. -/
def givesDetails (e : Environment) (flag : Bool) : Bool :=
  flag || isOn e.verbose || isOn e.debug

/-- Whether a failure is left to the caller. -/
def reraises (e : Environment) : Bool :=
  isOn e.reraise || isOn e.debug

/-- The least severity of the records that are shown, where an option may name one. -/
def threshold (e : Environment) (option : Option Text) : Severity :=
  let named := (option.filter (!·.isEmpty)).or e.logLevel
  (named.bind Severity.ofName?).getD .warning

end Environment

end SqlSnippet
