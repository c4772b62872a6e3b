import MetricLayer.CommandLine.Basic

/-!
# Help

The texts that explain the program and each of its commands.
-/

namespace MetricLayer

namespace Help

/-- The name of the program with its version. -/
def version : String := "nlq 0.1.0"

/-- What the option for the settings does. -/
def config : String :=
  "Settings file (defaults to NLQ_CONFIG, ./nlq.toml, then the user config dir)"

/-- The help of the program. -/
def program : List String :=
  ["nlq - translate natural-language analytics questions into parameterized SQL",
    "",
    "Usage: nlq [OPTIONS] <COMMAND>",
    "",
    "Commands:",
    "  translate  Translate a question to SQL",
    "  tables     List tables, views and relationships of the active schema",
    "  suggest    Suggest dictionary entries for a term",
    "  help       Print this message or the help of the given subcommand(s)",
    "",
    "Options:",
    "  -c, --config <CONFIG>  " ++ config,
    "  -h, --help             Print help",
    "  -V, --version          Print version"]

/-- The help of a command. -/
def ofCommand : CommandName → List String
  | .translate =>
    ["Translate a question to SQL",
      "",
      "Usage: nlq translate [OPTIONS] <TEXT>",
      "",
      "Arguments:",
      "  <TEXT>  The question",
      "",
      "Options:",
      "  -c, --config <CONFIG>     " ++ config,
      "  -r, --respond <ID=VALUE>  Answer a clarification prompt (repeatable)",
      "  -d, --dialect <DIALECT>   SQL dialect to generate (overrides settings) " ++
        "[possible values: postgres, tsql, duckdb]",
      "      --json                Print the full response as JSON",
      "  -h, --help                Print help"]
  | .tables =>
    ["List tables, views and relationships of the active schema",
      "",
      "Usage: nlq tables [OPTIONS]",
      "",
      "Options:",
      "  -c, --config <CONFIG>  " ++ config,
      "  -h, --help             Print help"]
  | .suggest =>
    ["Suggest dictionary entries for a term",
      "",
      "Usage: nlq suggest [OPTIONS] <KIND> <TERM>",
      "",
      "Arguments:",
      "  <KIND>  [possible values: metric, dimension]",
      "  <TERM>  ",
      "",
      "Options:",
      "  -c, --config <CONFIG>  " ++ config,
      "  -h, --help             Print help"]
  | .help =>
    ["Print this message or the help of the given subcommand(s)",
      "",
      "Usage: nlq help [COMMAND]...",
      "",
      "Arguments:",
      "  [COMMAND]...  Print help for the subcommand(s)"]

end Help

end MetricLayer
