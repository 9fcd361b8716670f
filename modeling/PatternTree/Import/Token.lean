import PatternTree.Import.Field
import PatternTree.Token

/-!
# Reading a token from a document

The location is read first, then the tag and the text, and only then the tag is looked up. So a
document with several faults is refused for the first of these.
-/

namespace PatternTree

namespace Token

/-- The token that a document denotes. -/
def ofDocument : Document → Traced Token
  | .object fields => do
    let l ← readLocation "Token" fields
    let tag ← readString "Token" "type" fields l
    let value ← readString "Token" "value" fields l
    let type ← TokenType.ofName tag l
    pure ⟨type, value, l⟩
  | _ => Traced.fail (.invalidField "Token" "token" "an object")

end Token

end PatternTree
