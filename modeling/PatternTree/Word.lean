/-!
# Words known in advance

The words of the language that turn up in nearly every token stream: the empty word, punctuators,
words for literals, keywords and words that are special in some contexts only.
-/

namespace PatternTree

namespace Word

/-- Punctuators. -/
def punctuators : List String :=
  ["(", ")", "[", "]", "\x7b", "\x7d", ",", ";", ".", "...", "=", "=>", ":", "?"]

/-- Words that are literals. -/
def literals : List String :=
  ["null", "true", "false"]

/-- Keywords. -/
def keywords : List String :=
  ["await", "break", "case", "catch", "class", "const", "continue", "debugger", "default", "delete",
    "do", "else", "export", "extends", "finally", "for", "function", "if", "import", "in",
    "instanceof", "let", "new", "return", "super", "switch", "this", "throw", "try", "typeof",
    "var", "void", "while", "with", "yield"]

/-- Words with a meaning in some contexts. -/
def contextual : List String :=
  ["arguments", "async", "eval", "get", "of", "set", "static", "undefined"]

/-- The word is known in advance. -/
def isKnown (s : String) : Bool :=
  s == "" || punctuators.contains s || literals.contains s || keywords.contains s ||
    contextual.contains s

end Word

end PatternTree
