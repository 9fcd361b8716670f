import PatternTree.Document.Lexeme

/-!
# Reading a document from its text

The lexemes are read by recursive descent. Each reader returns what it has read together with the
lexemes that are left, and the fact that they are fewer than before; the recursion ends for that
reason. A document may be nested to any depth: the limit of 128 levels, beyond which a text is
refused in practice, is left out.

`Document.parse` keeps the fields of an object as they stand in the text. `Document.read` goes on to
the canonical form.
-/

namespace PatternTree

/-- What has been read from the front of a list of lexemes. -/
structure Parsed (α : Type) (ls : List Lexeme) where
  /-- what has been read -/
  value : α
  /-- what is left -/
  rest : List Lexeme
  /-- something has been consumed -/
  shorter : rest.length < ls.length

namespace Document

/-- A key and the colon behind it. -/
def parseKey : (ls : List Lexeme) → Except Problem (Parsed String ls)
  | [] => .error .truncated
  | .string key :: .colon :: rest => .ok ⟨key, rest, by simp only [List.length_cons]; omega⟩
  | [.string _] => .error .truncated
  | .broken true p :: _ => .error p
  | _ => .error .malformed

mutual

/-- One document. -/
def parseValue (ls : List Lexeme) : Except Problem (Parsed Document ls) :=
  match ls with
  | [] => .error .truncated
  | .null :: rest => .ok ⟨.null, rest, by simp⟩
  | .bool b :: rest => .ok ⟨.bool b, rest, by simp⟩
  | .number n :: rest => .ok ⟨.number n, rest, by simp⟩
  | .string s :: rest => .ok ⟨.string s, rest, by simp⟩
  | .openBracket :: .closeBracket :: rest =>
    .ok ⟨.array [], rest, by simp only [List.length_cons]; omega⟩
  | .openBracket :: rest => do
    let ⟨entries, left, h⟩ ← parseEntries rest
    .ok ⟨.array entries, left, by simp only [List.length_cons]; omega⟩
  | .openBrace :: .closeBrace :: rest =>
    .ok ⟨.object [], rest, by simp only [List.length_cons]; omega⟩
  | .openBrace :: rest => do
    let ⟨fields, left, h⟩ ← parseFields rest
    .ok ⟨.object fields, left, by simp only [List.length_cons]; omega⟩
  | .broken _ p :: _ => .error p
  | _ => .error .malformed
termination_by (ls.length, 0)

/-- The entries of an array, up to the closing bracket; there is at least one. -/
def parseEntries (ls : List Lexeme) : Except Problem (Parsed (List Document) ls) := do
  let ⟨d, left, h⟩ ← parseValue ls
  match left, h with
  | .closeBracket :: rest, h =>
    .ok ⟨[d], rest, by simp only [List.length_cons] at h; omega⟩
  | .comma :: rest, h =>
    have : rest.length < ls.length := by simp only [List.length_cons] at h; omega
    let ⟨ds, left, h⟩ ← parseEntries rest
    .ok ⟨d :: ds, left, by omega⟩
  | [], _ => .error .truncated
  | _, _ => .error .malformed
termination_by (ls.length, 1)

/-- The fields of an object, up to the closing brace; there is at least one. -/
def parseFields (ls : List Lexeme) : Except Problem (Parsed (List (String × Document)) ls) := do
  let ⟨key, left, h⟩ ← parseKey ls
  let ⟨d, left, h'⟩ ← parseValue left
  match left, h' with
  | .closeBrace :: rest, h' =>
    .ok ⟨[(key, d)], rest, by simp only [List.length_cons] at h'; omega⟩
  | .comma :: rest, h' =>
    have : rest.length < ls.length := by simp only [List.length_cons] at h'; omega
    let ⟨fields, left, h⟩ ← parseFields rest
    .ok ⟨(key, d) :: fields, left, by omega⟩
  | [], _ => .error .truncated
  | _, _ => .error .malformed
termination_by (ls.length, 1)

end

/-- The one document that a list of lexemes makes up. -/
def ofLexemes (ls : List Lexeme) : Except Problem Document := do
  let ⟨d, left, _⟩ ← parseValue ls
  match left with
  | [] => .ok d
  | _ => .error .malformed

/-- The document that a text makes up, its fields as they stand in the text. -/
def parse (s : String) : Except Problem Document :=
  ofLexemes (Lexeme.ofText s)

/-- The document that a text denotes: fields in ascending order, the last of equal keys kept. -/
def read (s : String) : Except Problem Document :=
  (parse s).map canonical

end Document

end PatternTree
