import QueryNames.Grammar.Parser
import QueryNames.Tree

/-!
Nesting. Each production that can hold another inside it takes the parsers of the next level as a
parameter, so that a level is built from the one inside it and the limit is the number of levels.
-/

namespace QueryNames.Grammar

/-- The parsers of what stands one level further inside. -/
structure Level where
  query : Parser Query
  source : Parser TableSource
  expression : Parser Expression
  /-- What `NOT` can stand before. -/
  negation : Parser Expression
  /-- What a sign can stand before. -/
  signed : Parser Expression

end QueryNames.Grammar
