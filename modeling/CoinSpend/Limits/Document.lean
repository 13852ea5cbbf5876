/-
This file reads limits from a JSON document: an object with the three names, or a list of up to
three numbers.
-/

import CoinSpend.Limits.Token

namespace CoinSpend.Limits

/-- These are the limits that a document has set so far. -/
structure Settings where
  maxInputs : Option Nat
  maxOutputs : Option Nat
  maxScriptBytes : Option Nat
deriving DecidableEq

def Settings.empty : Settings := ⟨none, none, none⟩

/-- A limit that the document does not set caps nothing. -/
def Settings.complete (settings : Settings) : Limits :=
  ⟨settings.maxInputs.getD maxDeclared, settings.maxOutputs.getD maxDeclared,
    settings.maxScriptBytes.getD maxDeclared⟩

/-- These are the names in the order in which a list gives their values. -/
inductive Name where
  | maxInputs
  | maxOutputs
  | maxScriptBytes
deriving DecidableEq

def Name.characters : Name → List Char
  | .maxInputs => ['m', 'a', 'x', '_', 'i', 'n', 'p', 'u', 't', 's']
  | .maxOutputs => ['m', 'a', 'x', '_', 'o', 'u', 't', 'p', 'u', 't', 's']
  | .maxScriptBytes =>
      ['m', 'a', 'x', '_', 's', 'c', 'r', 'i', 'p', 't', '_', 'b', 'y', 't', 'e', 's']

def Name.all : List Name := [.maxInputs, .maxOutputs, .maxScriptBytes]

def Name.ofCharacters? (characters : List Char) : Option Name :=
  Name.all.find? fun name => name.characters = characters

def Settings.get? (settings : Settings) : Name → Option Nat
  | .maxInputs => settings.maxInputs
  | .maxOutputs => settings.maxOutputs
  | .maxScriptBytes => settings.maxScriptBytes

def Settings.put (settings : Settings) (value : Nat) : Name → Settings
  | .maxInputs => { settings with maxInputs := some value }
  | .maxOutputs => { settings with maxOutputs := some value }
  | .maxScriptBytes => { settings with maxScriptBytes := some value }

/-- An unknown name and a name that is already set are refused. -/
def Settings.assign? (settings : Settings) (characters : List Char) (value : Nat) :
    Option Settings :=
  match Name.ofCharacters? characters with
  | none => none
  | some name => if (settings.get? name).isSome then none else some (settings.put value name)

/-- This function reads the members of an object, which end with the closing brace. -/
def members? (settings : Settings) : List Token → Option Settings
  | [.name characters, .colon, .number value, .closeObject] =>
      settings.assign? characters value
  | .name characters :: .colon :: .number value :: .comma :: rest =>
      match settings.assign? characters value with
      | none => none
      | some settings => members? settings rest
  | _ => none

/-- This function reads the elements of a list, which end with the closing bracket. -/
def elements? (settings : Settings) : List Name → List Token → Option Settings
  | name :: _, [.number value, .closeArray] => some (settings.put value name)
  | name :: names, .number value :: .comma :: rest =>
      elements? (settings.put value name) names rest
  | _, _ => none

def settings? : List Token → Option Settings
  | [.openObject, .closeObject] => some .empty
  | [.openArray, .closeArray] => some .empty
  | .openObject :: rest => members? .empty rest
  | .openArray :: rest => elements? .empty Name.all rest
  | _ => none

def ofDocument (text : String) : Except Fault Limits :=
  match (tokens? text.toList).bind settings? with
  | none => .error .limitsDocument
  | some settings => .ok settings.complete

end CoinSpend.Limits
