import SqlSnippet.Command.Grammar

/-!
# The manual

The commands of the program with their options and operands, and the texts that explain them.
-/

namespace SqlSnippet.Manual

/-- The call for help, which every command knows. -/
def help : OptionSpec :=
  ⟨["-h".toList, "--help".toList], .help, []⟩

/-- An option without a value. -/
def switch (name : String) : OptionSpec :=
  ⟨[name.toList], .switch, []⟩

/-- An option with any value. -/
def valued (names : List String) : OptionSpec :=
  ⟨names.map String.toList, .value none, []⟩

/-- The names of the commands. -/
def commandNames : List Text :=
  ["highlight", "format", "tokens", "lsp"].map String.toList

/-- The levels that records can be shown from. -/
def logLevels : List Text :=
  ["debug", "info", "warn", "error"].map String.toList

/-- The program itself. -/
def program : Grammar where
  program := "complexsql"
  usage :=
"usage: complexsql [-h] [--version] [--config CONFIG] [--workspace WORKSPACE]
                  [--verbose] [--log-level \x7bdebug,info,warn,error\x7d]
                  \x7bhighlight,format,tokens,lsp\x7d ...
"
  manual :=
"Highlight and format SQL snippets for teaching pages

positional arguments:
  \x7bhighlight,format,tokens,lsp\x7d
                        Available commands
    highlight           Render SQL as an HTML fragment with syntax classes
    format              Re-flow SQL into one clause per line
    tokens              Print the classified token stream
    lsp                 Start the SQL language server over stdio

options:
  -h, --help            show this help message and exit
  --version             show program's version number and exit
  --config CONFIG       Path to a complexsql.toml configuration file
  --workspace WORKSPACE
                        Workspace root directory (defaults to current working
                        directory)
  --verbose             Print full tracebacks and detailed CLI errors (or set
                        COMPLEXSQL_VERBOSE=1)
  --log-level \x7bdebug,info,warn,error\x7d
                        Set logging level (or set COMPLEXSQL_LOG_LEVEL)
"
  options := [help, ⟨["--version".toList], .version, []⟩, valued ["--config"],
    valued ["--workspace"], switch "--verbose",
    ⟨["--log-level".toList], .value (some logLevels), []⟩]
  operand := some ⟨"command", .rest, false⟩

/-- The command that renders SQL. -/
def highlight : Grammar where
  program := "complexsql highlight"
  usage :=
"usage: complexsql highlight [-h] [--wrap] [--output OUTPUT] paths [paths ...]
"
  manual :=
"positional arguments:
  paths                 SQL files, directories or '-' for stdin

options:
  -h, --help            show this help message and exit
  --wrap                Wrap each fragment in <pre><code>
  --output OUTPUT, -o OUTPUT
                        Write the HTML to this file instead of stdout
"
  options := [help, switch "--wrap", valued ["--output", "-o"]]
  operand := some ⟨"paths", .several, true⟩

/-- The command that lays SQL out. -/
def format : Grammar where
  program := "complexsql format"
  usage :=
"usage: complexsql format [-h] [--check | --write] [--indent INDENT]
                         [--split-statements]
                         paths [paths ...]
"
  manual :=
"positional arguments:
  paths               SQL files, directories or '-' for stdin

options:
  -h, --help          show this help message and exit
  --check             Exit with status 1 if any file would be reformatted
  --write             Write formatted SQL back to the files
  --indent INDENT     Indent width for list items (overrides configuration)
  --split-statements  Format each ;-terminated statement separately
"
  options := [help, ⟨["--check".toList], .switch, ["--write".toList]⟩,
    ⟨["--write".toList], .switch, ["--check".toList]⟩, valued ["--indent"],
    switch "--split-statements"]
  operand := some ⟨"paths", .several, true⟩

/-- The command that lists tokens. -/
def tokens : Grammar where
  program := "complexsql tokens"
  usage :=
"usage: complexsql tokens [-h] [--json] path
"
  manual :=
"positional arguments:
  path        SQL file or '-' for stdin

options:
  -h, --help  show this help message and exit
  --json      Print tokens as a JSON array
"
  options := [help, switch "--json"]
  operand := some ⟨"path", .one, true⟩

/-- The command that starts the language server. -/
def lsp : Grammar where
  program := "complexsql lsp"
  usage :=
"usage: complexsql lsp [-h]
"
  manual :=
"options:
  -h, --help  show this help message and exit
"
  options := [help]
  operand := none

end SqlSnippet.Manual
