/-
The options that say how a grammar is written out: its name, the format, the widths of lines and of indentation, and
what follows from these. Only the name has no default.
-/
import TieredOptions.Contract.Basic

namespace TieredOptions.GrammarOutput

/-- the formats that a grammar can be written in, each with the extension of its files -/
def formats : List (String × String) := [("ebnf", "ebnf"), ("iso14977", "txt"), ("xml", "xml")]

/-- the extension of the files of a format -/
def fileExtension (format : String) : Except ResolveError String :=
  match formats.lookup format with
  | some extension => .ok extension
  | none => .error (.ofMessage ("unknown output format `" ++ format ++ "` (expected one of " ++
      ", ".intercalate (formats.map (·.1)) ++ ")"))

/-- as many blanks as a level of indentation has -/
def indentation (width : BitVec 32) : Except ResolveError String := .ok (String.ofList (List.replicate width.toNat ' '))

/-- Lines are wrapped unless their width is 0. -/
def wraps (width : BitVec 32) : Except ResolveError Bool := .ok (0 < width.toNat)

/-- the first line of the output -/
def header : Expr .string :=
  .sum .string (.get "grammar_name") [.const " grammar (", .get "output_format", .const ")"]

/-- the options of grammar output -/
def contract : Contract where
  name := "OutputOptions"
  accessors := [
    ⟨"grammar_name", [], .string, none⟩,
    ⟨"output_format", [], .string, some (.const "ebnf")⟩,
    ⟨"line_width", [], .int .u32, some (.const 80#32)⟩,
    ⟨"indent_width", [], .int .u32, some (.const 4#32)⟩,
    ⟨"indent", [], .string, some (.apply indentation (.get (t := .int .u32) "indent_width"))⟩,
    ⟨"wrap", [], .bool, some (.apply wraps (.get (t := .int .u32) "line_width"))⟩,
    ⟨"file_extension", [], .string, some (.apply fileExtension (.get (t := .string) "output_format"))⟩,
    ⟨"header", [], .string, some header⟩,
    ⟨"keywords", [], .strings, some (.const [])⟩]

end TieredOptions.GrammarOutput
