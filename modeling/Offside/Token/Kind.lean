/-!
# Kinds of tokens

A token is a mark of the layout, a literal or a name, an operator, or a keyword.  Operators and
keywords each have one spelling, and the spelling determines the kind.
-/

namespace Offside

/-- Tokens that come from the layout of the lines and not from a lexeme. -/
inductive Layout where
  | eof
  | newline
  | indent
  | dedent
  deriving DecidableEq, Repr

/-- Operators and punctuation. -/
inductive Operator where
  | assign
  | plusAssign
  | minusAssign
  | less
  | lessEq
  | equal
  | plus
  | minus
  | times
  | intDiv
  | mod
  | leftParen
  | rightParen
  | colon
  deriving DecidableEq, Repr

/-- Reserved words. -/
inductive Keyword where
  | andWord
  | orWord
  | notWord
  | ifWord
  | whileWord
  | printWord
  | passWord
  | inputWord
  | intType
  | strType
  | trueConst
  | falseConst
  | noneConst
  deriving DecidableEq, Repr

/-- The kind of a token. -/
inductive Kind where
  | layout (mark : Layout)
  | string
  | number
  | name
  | operator (op : Operator)
  | keyword (word : Keyword)
  deriving DecidableEq, Repr

/-! ## Spellings -/

namespace Operator

/-- How the operator is written. -/
def spelling : Operator → List Char
  | .assign => ['=']
  | .plusAssign => ['+', '=']
  | .minusAssign => ['-', '=']
  | .less => ['<']
  | .lessEq => ['<', '=']
  | .equal => ['=', '=']
  | .plus => ['+']
  | .minus => ['-']
  | .times => ['*']
  | .intDiv => ['/', '/']
  | .mod => ['%']
  | .leftParen => ['(']
  | .rightParen => [')']
  | .colon => [':']

/-- Every operator, in the order of the declaration. -/
def all : List Operator :=
  [.assign, .plusAssign, .minusAssign, .less, .lessEq, .equal, .plus, .minus, .times, .intDiv,
   .mod, .leftParen, .rightParen, .colon]

/-- The operators that end in an equals sign after another character; they are tried before
words and numbers. -/
def compound : List Operator := [.plusAssign, .minusAssign, .lessEq, .equal]

/-- The operators of one character. -/
def single : List Operator :=
  [.assign, .plus, .minus, .times, .less, .leftParen, .rightParen, .mod, .colon]

/-- The operator of `candidates` that is written `text`, if any. -/
def find? (candidates : List Operator) (text : List Char) : Option Operator :=
  candidates.find? fun op => op.spelling == text

end Operator

namespace Keyword

/-- How the keyword is written. -/
def spelling : Keyword → String
  | .andWord => "and"
  | .orWord => "or"
  | .notWord => "not"
  | .ifWord => "if"
  | .whileWord => "while"
  | .printWord => "print"
  | .passWord => "pass"
  | .inputWord => "input"
  | .intType => "int"
  | .strType => "str"
  | .trueConst => "True"
  | .falseConst => "False"
  | .noneConst => "None"

/-- Every keyword, in the order of the declaration. -/
def all : List Keyword :=
  [.andWord, .orWord, .notWord, .ifWord, .whileWord, .printWord, .passWord, .inputWord, .intType,
   .strType, .trueConst, .falseConst, .noneConst]

/-- The keyword that is written `text`, if any. -/
def ofText? (text : String) : Option Keyword := all.find? fun word => word.spelling == text

end Keyword

/-! ## Labels -/

/-- The label of a layout mark. -/
def Layout.label : Layout → String
  | .eof => "EOF"
  | .newline => "NEWLINE"
  | .indent => "INDENT"
  | .dedent => "DEDENT"

/-- The label of an operator. -/
def Operator.label : Operator → String
  | .assign => "ASSIGN"
  | .plusAssign => "PLUS_ASSIGN"
  | .minusAssign => "MINUS_ASSIGN"
  | .less => "LESS"
  | .lessEq => "LESS_EQ"
  | .equal => "EQUAL"
  | .plus => "PLUS"
  | .minus => "MINUS"
  | .times => "TIMES"
  | .intDiv => "INT_DIV"
  | .mod => "MOD"
  | .leftParen => "LPAREN"
  | .rightParen => "RPAREN"
  | .colon => "COLON"

/-- The label of a keyword. -/
def Keyword.label : Keyword → String
  | .andWord => "AND"
  | .orWord => "OR"
  | .notWord => "NOT"
  | .ifWord => "IF"
  | .whileWord => "WHILE"
  | .printWord => "PRINT"
  | .passWord => "PASS"
  | .inputWord => "INPUT"
  | .intType => "INT_TYPE"
  | .strType => "STR_TYPE"
  | .trueConst => "TRUE"
  | .falseConst => "FALSE"
  | .noneConst => "NONE"

namespace Kind

/-- The label of a kind. -/
def label : Kind → String
  | .layout mark => mark.label
  | .string => "STRING"
  | .number => "NUMBER"
  | .name => "NAME"
  | .operator op => op.label
  | .keyword word => word.label

/-- Every kind, in the order in which they are numbered. -/
def all : List Kind :=
  [.layout .eof, .layout .newline, .layout .indent, .layout .dedent, .string, .number, .name] ++
    Operator.all.map .operator ++ Keyword.all.map .keyword

/-- The kind with a given label. -/
def ofLabel? (text : String) : Option Kind := all.find? fun kind => kind.label == text

/-- The number of a kind, counted from one. -/
def ordinal (kind : Kind) : Nat := all.idxOf kind + 1

/-- Whether the kind comes from the layout of the lines. -/
def isLayout : Kind → Bool
  | .layout _ => true
  | _ => false

/-- No kind is missing from the list. -/
theorem mem_all (kind : Kind) : kind ∈ all := by
  cases kind with
  | layout mark => cases mark <;> decide
  | string | number | name => decide
  | operator op => cases op <;> decide
  | keyword word => cases word <;> decide

end Kind

/-- Different keywords are written differently. -/
theorem Keyword.spelling_injective {word other : Keyword} (h : word.spelling = other.spelling) :
    word = other := by
  revert h
  cases word <;> cases other <;> simp [spelling]

/-- Different operators are written differently. -/
theorem Operator.spelling_injective {op other : Operator} (h : op.spelling = other.spelling) :
    op = other := by
  revert h
  cases op <;> cases other <;> simp [spelling]

end Offside
