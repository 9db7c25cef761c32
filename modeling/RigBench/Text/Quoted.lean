import RigBench.Text.Invisible

/-!
Texts in double quotes, as messages show them.
-/
namespace RigBench.Text

def codeEscape (c : Char) : List Char :=
  ['\\', 'u', '\x7b'] ++ Nat.toDigits 16 c.toNat ++ ['\x7d']

/-- How one character is shown. `apostrophes` says whether a single quote is escaped too. -/
def quoteChar (apostrophes : Bool) (c : Char) : List Char :=
  match c with
  | '\x00' => ['\\', '0']
  | '\t' => ['\\', 't']
  | '\r' => ['\\', 'r']
  | '\n' => ['\\', 'n']
  | '\\' => ['\\', '\\']
  | '"' => ['\\', '"']
  | c =>
    if apostrophes && c == '\'' then ['\\', '\'']
    else if isInvisible c then codeEscape c
    else [c]

def quoted (s : String) : String :=
  String.ofList ('"' :: s.toList.flatMap (quoteChar false) ++ ['"'])

/-- A file name in quotes; single quotes are escaped in it. -/
def quotedPath (s : String) : String :=
  String.ofList ('"' :: s.toList.flatMap (quoteChar true) ++ ['"'])

end RigBench.Text
