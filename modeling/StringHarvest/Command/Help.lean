/-!
# Help pages

The texts that explain the commands.
-/

namespace StringHarvest.Command

/-- The version of the program. -/
def version : String := "jsgettext 0.1.0\n"

/-- What help can be about. -/
inductive HelpPage where
  | overview
  | extract
  | init
  | help
  deriving DecidableEq, Repr

/-- Lines, each with its line end. -/
def lines (texts : List String) : String := String.join (texts.map (· ++ "\n"))

/-- The text of a help page. -/
def HelpPage.text : HelpPage → String
  | .overview => lines [
      "Extract translatable strings from JavaScript and TypeScript sources into gettext templates",
      "",
      "Usage: jsgettext [COMMAND]",
      "",
      "Commands:",
      "  extract  Extract translation strings into a gettext template",
      "  init     Initialize a new .jsgettextrc.json configuration file",
      "  help     Print this message or the help of the given subcommand(s)",
      "",
      "Options:",
      "  -h, --help     Print help",
      "  -V, --version  Print version"]
  | .extract => lines [
      "Extract translation strings into a gettext template",
      "",
      "Usage: jsgettext extract [OPTIONS] [SOURCES]...",
      "",
      "Arguments:",
      "  [SOURCES]...  Files, directories or glob patterns; replaces the configured groups",
      "",
      "Options:",
      "      --source-root <SOURCE_ROOT>       Source root directory; config lookup and relative paths start here "
        ++ "[default: .]",
      "  -v, --verbose                         Enable verbose output",
      "  -f, --function-name <FUNCTION_NAMES>  Translation function name (overrides config file) Can be specified "
        ++ "multiple times: -f tr -f i18n.tr",
      "      --pot-file <POT_FILE>             Output template path (overrides config file)",
      "      --extractor <EXTRACTOR>           Extractor used for the sources given on the command line "
        ++ "[default: javascript] [possible values: javascript, typescript]",
      "  -h, --help                            Print help"]
  | .init => lines [
      "Initialize a new .jsgettextrc.json configuration file",
      "",
      "Usage: jsgettext init",
      "",
      "Options:",
      "  -h, --help  Print help"]
  | .help => lines [
      "Print this message or the help of the given subcommand(s)",
      "",
      "Usage: jsgettext help [COMMAND]...",
      "",
      "Arguments:",
      "  [COMMAND]...  Print help for the subcommand(s)"]

/-- The page that a command has. -/
def HelpPage.ofCommand? : String → Option HelpPage
  | "extract" => some .extract
  | "init" => some .init
  | "help" => some .help
  | _ => none

end StringHarvest.Command
