import SchemaPlan.Keyed
import SchemaPlan.Sql.Split

/-!
# Trailing clauses

The text of a table engine: a declaration, then clauses such as `ORDER BY id`, each opened by a
keyword that stands as a word of its own outside literals and parentheses.

* `findKeyword?`: where a keyword first stands.
* `declaration`: the text before the first clause.
* `clauseBody?`: the text of one clause.
* `clauses`: the clauses that only this text tells, the lifetime of rows and the settings.
-/

namespace SchemaPlan.Sql

/-- The clauses that may follow an engine declaration. -/
inductive Clause
  | partitionBy
  | primaryKey
  | orderBy
  | sampleBy
  | ttl
  | settings
  deriving DecidableEq, Repr

namespace Clause

/-- All clauses. -/
def all : List Clause := [partitionBy, primaryKey, orderBy, sampleBy, ttl, settings]

/-- The word or words that open a clause. -/
def keyword : Clause → String
  | partitionBy => "PARTITION BY"
  | primaryKey => "PRIMARY KEY"
  | orderBy => "ORDER BY"
  | sampleBy => "SAMPLE BY"
  | ttl => "TTL"
  | settings => "SETTINGS"

end Clause

/-- `cs` starts with the word `word`, and the word ends there or before a blank. -/
def startsWithWord (word cs : List Char) : Bool :=
  match word.isPrefixOf? cs with
  | none => false
  | some rest => rest.head?.all isBlank

/-- The offset of the first exposed character that comes after a blank and starts the word
`word`, in a text that is read from state `s` on after the character `before`. -/
def findWordFrom? (word : List Char) (s : ScanState) (before : Option Char) :
    List Char → Option Nat
  | [] => none
  | c :: cs =>
    if s.exposes c && before.any isBlank && startsWithWord word (c :: cs) then some 0
    else (findWordFrom? word (s.step c) (some c) cs).map (· + 1)

/-- The offset of the first place where the keyword of a clause stands as a word of its own,
after a blank and outside literals and parentheses. -/
def findKeyword? (clause : Clause) (cs : List Char) : Option Nat :=
  findWordFrom? clause.keyword.toList .start none cs

/-- The offset where the first clause of a text starts; the length of a text without clauses. -/
def clausesStart (cs : List Char) : Nat :=
  (Clause.all.filterMap (findKeyword? · cs)).foldl min cs.length

/-- The text before the first clause, trimmed. -/
def declarationChars (cs : List Char) : List Char := trim (cs.take (clausesStart cs))

/-- The text before the first clause, trimmed. -/
def declaration (text : String) : String := String.ofList (declarationChars text.toList)

/-- The text between the first keyword of a clause and the keyword after it, trimmed. The text
after the first keyword is read as a text of its own. -/
def clauseBody? (clause : Clause) (cs : List Char) : Option (List Char) :=
  match findKeyword? clause cs with
  | none => none
  | some start =>
    let rest := cs.drop (start + clause.keyword.length)
    match trim (rest.take (clausesStart rest)) with
    | [] => none
    | body => some body

/-- A setting `key = value`, cut at its first equals sign. -/
def assignment? (cs : List Char) : Option (String × String) :=
  match cs.dropWhile (· != '=') with
  | [] => none
  | _ :: value =>
    some (String.ofList (trim (cs.takeWhile (· != '='))), String.ofList (trim value))

/-- The settings of a list `a = 1, b = 2`. Parts without an equals sign are left out, and of
several settings with one key the last one stays. -/
def settingsOf (body : List Char) : Keyed String :=
  .ofList ((splitPieces body).filterMap assignment?)

/-- What the clauses of an engine text say beyond the keys of the table. -/
structure Clauses where
  ttl : Option String
  settings : Keyed String
  deriving DecidableEq

/-- The lifetime and the settings in the clauses of an engine text. -/
def clauses (text : String) : Clauses where
  ttl := (clauseBody? .ttl text.toList).map String.ofList
  settings :=
    match clauseBody? .settings text.toList with
    | none => .empty
    | some body => settingsOf body

end SchemaPlan.Sql
