import GradualScript.Grammar.Expression

/-!
# The grammar, written out

What it means that a piece of program is written at the start of a list of tokens, with some tokens
left behind it. Expressions are what `Parse.anyExpression` reads; everything else is given by rules,
one for each form. A rule names the tokens that it starts and ends with, and so says what the span
of the piece is.

Keywords and signs are told by their text, and a list of tokens may hold anything, so two things
have to be said that are not a matter of form. A statement that starts with a keyword is of the
form that the keyword announces, and a block ends where a statement could start but a token that
ends the block is found. For the same reason a list of items is empty if the token that closes it
comes first, also where that token could be taken for a name.
-/

namespace GradualScript

/-- A way to write something: the tokens, what they say, and the tokens left behind it. -/
abbrev Rule (α : Type) := List Token → α → List Token → Prop

namespace Written

/-- Whether the first token is written as `text`. -/
def startsWith (tokens : List Token) (text : String) : Bool :=
  tokens.head?.any (·.reads text)

/-- Whether the first token is written as one of the texts. -/
def startsWithAny (tokens : List Token) (texts : List String) : Bool :=
  texts.any (startsWith tokens)

/-- An expression. -/
def Expression : Rule Expr := fun tokens expr rest =>
  ∃ after, Parse.anyExpression .standard (.ofTokens tokens "") = .ok expr after ∧ after.ahead = rest

/-- A name, also of a type. -/
inductive Name : Rule String
  | intro {token : Token} {rest : List Token} (isName : token.kind = .identifier) :
      Name (token :: rest) token.text rest

variable {α : Type}

/-- An item after a sign, or nothing. -/
inductive Optional (sign : String) (item : Rule α) : Rule (Option α)
  | absent {rest : List Token} : Optional sign item rest none rest
  | present {opener : Token} {tokens rest : List Token} {value : α}
      (opens : opener.reads sign = true) (written : item tokens value rest) :
      Optional sign item (opener :: tokens) (some value) rest

/-- Items with commas between them. -/
inductive Separated (item : Rule α) : Rule (List α)
  | last {tokens rest : List Token} {value : α} (written : item tokens value rest) :
      Separated item tokens [value] rest
  | more {tokens middle rest : List Token} {comma : Token} {value : α} {others : List α}
      (written : item tokens value (comma :: middle)) (separates : comma.reads "," = true)
      (further : Separated item middle others rest) :
      Separated item tokens (value :: others) rest

/-- Items with commas between them, or none, and the token that closes them. -/
inductive Items (closer : String) (item : Rule α) : Token → Rule (List α)
  | none {token : Token} {rest : List Token} (closes : token.reads closer = true) :
      Items closer item token (token :: rest) [] rest
  | some {token : Token} {tokens rest : List Token} {values : List α}
      (notClosed : startsWith tokens closer = false)
      (written : Separated item tokens values (token :: rest))
      (closes : token.reads closer = true) : Items closer item token tokens values rest

/-- Whether a token is the keyword that a form of statement starts with. -/
def heads (token : Token) (keyword : Keyword) : Prop :=
  token.kind = .identifier ∧ token.text = keyword.text

/-- The end of a block: that of its last statement, or of the token before it. -/
def endOf (body : List Stmt) (before : Token) : Position :=
  (body.getLast?.map (·.span.stop)).getD before.span.stop

mutual

/-- A statement. -/
inductive Statement : Rule Stmt
  | declaration {keyword name semicolon : Token} {tokens middle rest : List Token}
      {type : Option String} {initializer : Option Expr} (isKeyword : heads keyword .declaration)
      (isName : name.kind = .identifier) (typed : Optional ":" Name tokens type middle)
      (initialized : Optional "=" Expression middle initializer (semicolon :: rest))
      (ends : semicolon.reads ";" = true) :
      Statement (keyword :: name :: tokens)
        (.declaration ⟨keyword.span.start, semicolon.span.stop⟩ name.text type initializer none)
        rest
  | branch {keyword opener closer : Token} {tokens middle rest : List Token} {condition : Expr}
      {thenBody : List Stmt} (isKeyword : heads keyword .branch)
      (conditioned : Expression tokens condition (opener :: middle))
      (opens : opener.reads "DO" = true)
      (thenWritten : Block ["ELSE", "END"] middle thenBody (closer :: rest))
      (closes : closer.reads "END" = true) :
      Statement (keyword :: tokens)
        (.branch ⟨keyword.span.start, closer.span.stop⟩ condition thenBody []) rest
  | branchElse {keyword opener divider closer : Token} {tokens middle last rest : List Token}
      {condition : Expr} {thenBody elseBody : List Stmt} (isKeyword : heads keyword .branch)
      (conditioned : Expression tokens condition (opener :: middle))
      (opens : opener.reads "DO" = true)
      (thenWritten : Block ["ELSE", "END"] middle thenBody (divider :: last))
      (divides : divider.reads "ELSE" = true)
      (elseWritten : Block ["END"] last elseBody (closer :: rest))
      (closes : closer.reads "END" = true) :
      Statement (keyword :: tokens)
        (.branch ⟨keyword.span.start, closer.span.stop⟩ condition thenBody elseBody) rest
  | switch {keyword closer : Token} {tokens middle rest : List Token} {subject : Expr}
      {cases : Cases} (isKeyword : heads keyword .switch)
      (examined : Expression tokens subject middle) (arms : Arms middle cases (closer :: rest))
      (closes : closer.reads "END" = true) :
      Statement (keyword :: tokens)
        (.switch ⟨keyword.span.start, closer.span.stop⟩ subject cases) rest
  | loop {keyword opener closer : Token} {tokens middle rest : List Token} {condition : Expr}
      {body : List Stmt} (isKeyword : heads keyword .loop)
      (conditioned : Expression tokens condition (opener :: middle))
      (opens : opener.reads "DO" = true) (written : Block ["END"] middle body (closer :: rest))
      (closes : closer.reads "END" = true) :
      Statement (keyword :: tokens) (.loop ⟨keyword.span.start, closer.span.stop⟩ condition body)
        rest
  | result {keyword semicolon : Token} {tokens rest : List Token} {value : Expr}
      (isKeyword : heads keyword .result) (written : Expression tokens value (semicolon :: rest))
      (ends : semicolon.reads ";" = true) :
      Statement (keyword :: tokens) (.result ⟨keyword.span.start, semicolon.span.stop⟩ value) rest
  | expression {first semicolon : Token} {tokens rest : List Token} {expr : Expr}
      (plain : ∀ keyword, ¬heads first keyword)
      (written : Expression (first :: tokens) expr (semicolon :: rest))
      (ends : semicolon.reads ";" = true) :
      Statement (first :: tokens) (.expression ⟨first.span.start, semicolon.span.stop⟩ expr) rest
  | assignment {first equals semicolon : Token} {tokens middle rest : List Token}
      {receiver value : Expr} (plain : ∀ keyword, ¬heads first keyword)
      (received : Expression (first :: tokens) receiver (equals :: middle))
      (assigns : equals.reads "=" = true) (isAccess : receiver.isAccess = true)
      (written : Expression middle value (semicolon :: rest)) (ends : semicolon.reads ";" = true) :
      Statement (first :: tokens)
        (.assignment ⟨first.span.start, semicolon.span.stop⟩ receiver value) rest

/-- Statements up to one of the terminators, which is left. -/
inductive Block : List String → Rule (List Stmt)
  | done {terminators : List String} {rest : List Token}
      (terminated : startsWithAny rest terminators = true) : Block terminators rest [] rest
  | more {terminators : List String} {tokens middle rest : List Token} {statement : Stmt}
      {others : List Stmt} (goesOn : startsWithAny tokens terminators = false)
      (written : Statement tokens statement middle)
      (further : Block terminators middle others rest) :
      Block terminators tokens (statement :: others) rest

/-- The arms of a switch. -/
inductive Arms : Rule Cases
  | default {keyword : Token} {tokens rest : List Token} {body : List Stmt}
      (isKeyword : keyword.reads "DEFAULT" = true) (written : Block ["END"] tokens body rest) :
      Arms (keyword :: tokens) (.default ⟨keyword.span.start, endOf body keyword⟩ body) rest
  | case {keyword colon : Token} {tokens middle last rest : List Token} {value : Expr}
      {body : List Stmt} {others : Cases} (isKeyword : keyword.reads "CASE" = true)
      (valued : Expression tokens value (colon :: middle)) (opens : colon.reads ":" = true)
      (written : Block ["CASE", "DEFAULT", "END"] middle body last)
      (further : Arms last others rest) :
      Arms (keyword :: tokens) (.case ⟨keyword.span.start, endOf body colon⟩ value body others) rest

end

/-- A global. -/
inductive OneGlobal : Rule Global
  | list {keyword name colon type equals opener closer semicolon : Token}
      {tokens rest : List Token} {elements : List Expr} (isKeyword : keyword.reads "LIST" = true)
      (isName : name.kind = .identifier) (separates : colon.reads ":" = true)
      (isType : type.kind = .identifier) (assigns : equals.reads "=" = true)
      (opens : opener.reads "[" = true)
      (written : Items "]" Expression closer tokens elements (semicolon :: rest))
      (ends : semicolon.reads ";" = true) :
      OneGlobal (keyword :: name :: colon :: type :: equals :: opener :: tokens)
        ⟨⟨keyword.span.start, semicolon.span.stop⟩, name.text, type.text, true,
          some (.list ⟨opener.span.start, closer.span.stop⟩ none elements), none⟩ rest
  | mutable {keyword name colon type semicolon : Token} {tokens rest : List Token}
      {initializer : Option Expr} (isKeyword : keyword.reads "VAR" = true)
      (isName : name.kind = .identifier) (separates : colon.reads ":" = true)
      (isType : type.kind = .identifier)
      (written : Optional "=" Expression tokens initializer (semicolon :: rest))
      (ends : semicolon.reads ";" = true) :
      OneGlobal (keyword :: name :: colon :: type :: tokens)
        ⟨⟨keyword.span.start, semicolon.span.stop⟩, name.text, type.text, true, initializer, none⟩
        rest
  | constant {keyword name colon type equals semicolon : Token} {tokens rest : List Token}
      {initializer : Expr} (isKeyword : keyword.reads "VAL" = true)
      (isName : name.kind = .identifier) (separates : colon.reads ":" = true)
      (isType : type.kind = .identifier) (assigns : equals.reads "=" = true)
      (written : Expression tokens initializer (semicolon :: rest))
      (ends : semicolon.reads ";" = true) :
      OneGlobal (keyword :: name :: colon :: type :: equals :: tokens)
        ⟨⟨keyword.span.start, semicolon.span.stop⟩, name.text, type.text, false, some initializer,
          none⟩ rest

/-- A parameter and its type. -/
inductive OneParameter : Rule Parameter
  | intro {name colon type : Token} {rest : List Token} (isName : name.kind = .identifier)
      (separates : colon.reads ":" = true) (isType : type.kind = .identifier) :
      OneParameter (name :: colon :: type :: rest) ⟨name.text, type.text⟩ rest

/-- A function. -/
inductive OneFunction : Rule Function
  | intro {keyword name bracket closing opener closer : Token}
      {tokens middle last rest : List Token} {parameters : List Parameter} {type : Option String}
      {body : List Stmt} (isKeyword : keyword.reads "FUN" = true)
      (isName : name.kind = .identifier) (brackets : bracket.reads "(" = true)
      (listed : Items ")" OneParameter closing tokens parameters middle)
      (typed : Optional ":" Name middle type (opener :: last)) (opens : opener.reads "DO" = true)
      (written : Block ["END"] last body (closer :: rest)) (closes : closer.reads "END" = true) :
      OneFunction (keyword :: name :: bracket :: tokens)
        ⟨⟨keyword.span.start, closer.span.stop⟩, name.text, parameters, type, body, none⟩ rest

/-- Any number of items, one after the other. -/
inductive Repeated (item : Rule α) : Rule (List α)
  | nil {rest : List Token} : Repeated item rest [] rest
  | cons {tokens middle rest : List Token} {value : α} {others : List α}
      (written : item tokens value middle) (further : Repeated item middle others rest) :
      Repeated item tokens (value :: others) rest

/-- A whole program: its globals, its functions, and no token more. -/
def Source (tokens : List Token) (program : Program) : Prop :=
  ∃ middle, Repeated OneGlobal tokens program.globals middle ∧
    Repeated OneFunction middle program.functions []

end Written

end GradualScript
