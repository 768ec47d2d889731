/-!
The reserved words of the query language. A word is reserved whatever the case of its letters;
words that act as keywords in one place only (`APPLY`, `TIES`, `OFFSET`) are not among them.
-/

namespace QueryNames

inductive Keyword where
  | all | alter | and | as | asc | begin | between | by | case | convert | create | cross
  | declare | delete | desc | distinct | drop | else | end | escape | except | exec | execute
  | exists | for | from | full | group | having | if | in | inner | insert | intersect | into | is
  | join | left | like | merge | not | null | on | option | or | order | outer | over | percent
  | right | select | set | then | top | truncate | union | update | use | when | where | with
  deriving DecidableEq, Repr

namespace Keyword

def every : List Keyword :=
  [.all, .alter, .and, .as, .asc, .begin, .between, .by, .case, .convert, .create, .cross,
   .declare, .delete, .desc, .distinct, .drop, .else, .end, .escape, .except, .exec, .execute,
   .exists, .for, .from, .full, .group, .having, .if, .in, .inner, .insert, .intersect, .into,
   .is, .join, .left, .like, .merge, .not, .null, .on, .option, .or, .order, .outer, .over,
   .percent, .right, .select, .set, .then, .top, .truncate, .union, .update, .use, .when, .where,
   .with]

def spelling : Keyword → String
  | .all => "ALL"
  | .alter => "ALTER"
  | .and => "AND"
  | .as => "AS"
  | .asc => "ASC"
  | .begin => "BEGIN"
  | .between => "BETWEEN"
  | .by => "BY"
  | .case => "CASE"
  | .convert => "CONVERT"
  | .create => "CREATE"
  | .cross => "CROSS"
  | .declare => "DECLARE"
  | .delete => "DELETE"
  | .desc => "DESC"
  | .distinct => "DISTINCT"
  | .drop => "DROP"
  | .else => "ELSE"
  | .end => "END"
  | .escape => "ESCAPE"
  | .except => "EXCEPT"
  | .exec => "EXEC"
  | .execute => "EXECUTE"
  | .exists => "EXISTS"
  | .for => "FOR"
  | .from => "FROM"
  | .full => "FULL"
  | .group => "GROUP"
  | .having => "HAVING"
  | .if => "IF"
  | .in => "IN"
  | .inner => "INNER"
  | .insert => "INSERT"
  | .intersect => "INTERSECT"
  | .into => "INTO"
  | .is => "IS"
  | .join => "JOIN"
  | .left => "LEFT"
  | .like => "LIKE"
  | .merge => "MERGE"
  | .not => "NOT"
  | .null => "NULL"
  | .on => "ON"
  | .option => "OPTION"
  | .or => "OR"
  | .order => "ORDER"
  | .outer => "OUTER"
  | .over => "OVER"
  | .percent => "PERCENT"
  | .right => "RIGHT"
  | .select => "SELECT"
  | .set => "SET"
  | .then => "THEN"
  | .top => "TOP"
  | .truncate => "TRUNCATE"
  | .union => "UNION"
  | .update => "UPDATE"
  | .use => "USE"
  | .when => "WHEN"
  | .where => "WHERE"
  | .with => "WITH"

def ofWord? (word : String) : Option Keyword :=
  let upper := word.toUpper
  every.find? (·.spelling == upper)

theorem mem_every (k : Keyword) : k ∈ every := by cases k <;> decide

/-- The keywords that begin a statement other than a query. -/
def startsOtherStatement : Keyword → Bool
  | .alter | .begin | .create | .declare | .delete | .drop | .exec | .execute | .if | .insert
  | .merge | .set | .truncate | .update | .use => true
  | _ => false

/-- The keywords that end the clause before them. -/
def endsClause : Keyword → Bool
  | .select | .into | .from | .where | .group | .having | .order | .union | .except | .intersect
  | .for | .option => true
  | k => k.startsOtherStatement

/-- The keywords that can begin a join operator. -/
def startsJoin : Keyword → Bool
  | .join | .inner | .left | .right | .full | .cross | .outer => true
  | _ => false

end Keyword

end QueryNames
