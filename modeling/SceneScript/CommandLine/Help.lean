/-!
# Usage and help texts

Both start with a usage line that is broken at eighty columns: the switches follow the program's
name, later lines are indented to stand below them, and the input has a line of its own.
-/

namespace SceneScript.CommandLine

/-- The width to which the usage is broken. -/
def usageWidth : Nat := 78

/-- The switches as the usage shows them. -/
def usageParts : List String :=
  ["[-h]", "-t TABLES", "[-o OUTPUT]", "[-s SCENE]", "[--listing]", "[--verbose]"]

/-- Fills lines with words; `line` is the one being filled and the result has it first. -/
def fillLines (width indent : Nat) (line : String) : List String → List String
  | [] => [line]
  | part :: rest =>
    if width < line.length + 1 + part.length then
      line :: fillLines width indent (String.ofList (List.replicate indent ' ') ++ part) rest
    else fillLines width indent (line ++ " " ++ part) rest

/-- The usage of the program with the given name. -/
def usage (program : String) : String :=
  let start := "usage: " ++ program
  let indent := start.length + 1
  let lines := fillLines usageWidth indent start usageParts
  String.join (lines.map (· ++ "\n")) ++ String.ofList (List.replicate indent ' ') ++ "input\n"

/-- The help after the usage. -/
def helpBody : List String :=
  ["",
   "Scene script compiler - Compile event scripts to runtime bytecode",
   "",
   "positional arguments:",
   "  input                 Input script .json file",
   "",
   "options:",
   "  -h, --help            show this help message and exit",
   "  -t TABLES, --tables TABLES",
   "                        Symbol tables .json file (strings, flags, scenes,",
   "                        music, actors)",
   "  -o OUTPUT, --output OUTPUT",
   "                        Output bytecode file (default: <input>.bin)",
   "  -s SCENE, --scene SCENE",
   "                        Scene id whose actors the script refers to",
   "  --listing             Print a disassembly of the compiled script",
   "  --verbose             Verbose output"]

/-- The help of the program with the given name. -/
def help (program : String) : String :=
  usage program ++ String.join (helpBody.map (· ++ "\n"))

end SceneScript.CommandLine
