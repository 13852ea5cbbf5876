/-
This file lays out JSON values on indented lines and shows a transaction in this way for inspection.
-/

import CoinSpend.Transaction

namespace CoinSpend.Json

/-- A value is laid out on one or more lines; the first can follow a name. -/
abbrev Lines := List String

/-- Every level is indented by two blanks. -/
def indent (line : String) : String := "  " ++ line

def quote (text : String) : String := "\"" ++ text ++ "\""

def number (value : Nat) : Lines := [toString value]

/-- Hexadecimal text needs no escapes. -/
def hexText (bytes : Bytes) : Lines := [quote (Hex.encode bytes)]

def named (name : String) : Lines → Lines
  | [] => []
  | first :: rest => (quote name ++ ": " ++ first) :: rest

/-- A comma follows the last line. -/
def withComma : Lines → Lines
  | [] => []
  | [last] => [last ++ ","]
  | line :: rest => line :: withComma rest

/-- A comma stands between two values. -/
def separated : List Lines → Lines
  | [] => []
  | [last] => last
  | value :: rest => withComma value ++ separated rest

def record (members : List Lines) : Lines :=
  "\x7b" :: (separated members).map indent ++ ["\x7d"]

/-- The empty list stands on one line. -/
def list (values : List Lines) : Lines :=
  if values.isEmpty then ["[]"] else "[" :: (separated values).map indent ++ ["]"]

/-- Line feeds stand between the lines and none at the end. -/
def render (lines : Lines) : String := "\n".intercalate lines

end CoinSpend.Json

namespace CoinSpend

/-- The index is shown from its high byte and the sequence in wire order. -/
def Input.json (input : Input) : Json.Lines :=
  Json.record [
    Json.named "prev_hash" (Json.hexText input.previousHash.bytes),
    Json.named "output_index" (Json.hexText (toBigEndian 4 input.outputIndex.toNat)),
    Json.named "script_sig" (Json.hexText input.unlockingScript),
    Json.named "sequence" (Json.hexText (toLittleEndian 4 input.sequence.toNat))]

def Output.json (output : Output) : Json.Lines :=
  Json.record [
    Json.named "amount" (Json.number output.amount.toNat),
    Json.named "script" (Json.hexText output.lockingScript)]

/-- The labels of the inputs are not shown. -/
def Transaction.json (transaction : Transaction) : Json.Lines :=
  Json.record [
    Json.named "version" (Json.number transaction.version.toNat),
    Json.named "inputs" (Json.list (transaction.inputs.map Input.json)),
    Json.named "outputs" (Json.list (transaction.outputs.map Output.json)),
    Json.named "locktime" (Json.number transaction.locktime.toNat)]

def Transaction.inspect (transaction : Transaction) : String := Json.render transaction.json

end CoinSpend
