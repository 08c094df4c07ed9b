/-! # Help texts

The short help gives each option one line, the long help a paragraph. -/

set_option autoImplicit false

namespace LoginNames.CommandLine

def shortOptions : List String :=
  ["Generate username and email candidates from first and last name lists",
    "",
    "Usage: usernamecrafter [OPTIONS]",
    "",
    "Options:",
    "  -F, --firstnames <FILE>",
    "          File with one first name per line",
    "  -L, --lastnames <FILE>",
    "          File with one last name per line",
    "  -o, --output <FILE>",
    "          File to write the generated lines to",
    "  -f, --format <TEMPLATE>",
    "          Template using \x7bfirstname\x7d, \x7blastname\x7d, \x7bfirstname\x7d(N) and \x7blastname\x7d(N)",
    "  -c, --config <FILE>",
    "          TOML profile with default settings; command line values take precedence",
    "      --max-lines <MAX_LINES>",
    "          Refuse to generate more than this many lines",
    "      --max-name-length <MAX_NAME_LENGTH>",
    "          Longest name kept from an input line, in bytes",
    "      --overlong <OVERLONG>",
    "          How to handle input lines longer than --max-name-length [possible values: truncate, reject]",
    "      --strip-cr",
    "          Strip a trailing carriage return from every name (CRLF input)",
    "      --verbose",
    "          Enable verbose output",
    "      --json-logs",
    "          Emit log lines as JSON",
    "      --monitor",
    "          Log process CPU and memory usage",
    "  -v, --version",
    "          Print version information",
    "  -h, --help",
    "          Print help (see more with '--help')",
    ""]

def longOptions : List String :=
  ["Generate username and email candidates from first and last name lists",
    "",
    "Usage: usernamecrafter [OPTIONS]",
    "",
    "Options:",
    "  -F, --firstnames <FILE>",
    "          File with one first name per line",
    "",
    "  -L, --lastnames <FILE>",
    "          File with one last name per line",
    "",
    "  -o, --output <FILE>",
    "          File to write the generated lines to",
    "",
    "  -f, --format <TEMPLATE>",
    "          Template using \x7bfirstname\x7d, \x7blastname\x7d, \x7bfirstname\x7d(N) and \x7blastname\x7d(N)",
    "",
    "  -c, --config <FILE>",
    "          TOML profile with default settings; command line values take precedence",
    "",
    "      --max-lines <MAX_LINES>",
    "          Refuse to generate more than this many lines",
    "",
    "      --max-name-length <MAX_NAME_LENGTH>",
    "          Longest name kept from an input line, in bytes",
    "",
    "      --overlong <OVERLONG>",
    "          How to handle input lines longer than --max-name-length",
    "",
    "          Possible values:",
    "          - truncate: Keep the first bytes up to the limit and drop the remainder of the line",
    "          - reject:   Fail the load",
    "",
    "      --strip-cr",
    "          Strip a trailing carriage return from every name (CRLF input)",
    "",
    "      --verbose",
    "          Enable verbose output",
    "",
    "      --json-logs",
    "          Emit log lines as JSON",
    "",
    "      --monitor",
    "          Log process CPU and memory usage",
    "",
    "  -v, --version",
    "          Print version information",
    "",
    "  -h, --help",
    "          Print help (see a summary with '-h')",
    ""]

def examples : List String :=
  ["Examples:",
    "  usernamecrafter -F firstnames.txt -L lastnames.txt -o output.txt -f \x7bfirstname\x7d\x7blastname\x7d",
    "  usernamecrafter -F firstnames.txt -L lastnames.txt -o output.txt -f \x7bfirstname\x7d.\x7blastname\x7d@dom.com",
    "  usernamecrafter -F firstnames.txt -L lastnames.txt -o output.txt -f \x7bfirstname\x7d(1)\x7blastname\x7d",
    "  usernamecrafter -F firstnames.txt -L lastnames.txt -o output.txt -f \x7bfirstname\x7d\x7blastname\x7d(2)",
    "  usernamecrafter -F firstnames.txt -L lastnames.txt -o output.txt -f \x7bfirstname\x7d(3)\x7blastname\x7d(3)",
    "  usernamecrafter -F firstnames.txt -L lastnames.txt -o output.txt -f \x7bfirstname\x7d(3)_\x7blastname\x7d(3)@domain.com",
    "  usernamecrafter -c profile.toml -o other-output.txt"]

def help (long : Bool) : String :=
  String.join (((if long then longOptions else shortOptions) ++ examples).map (· ++ "\n"))

end LoginNames.CommandLine
