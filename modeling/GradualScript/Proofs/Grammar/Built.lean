import GradualScript.Proofs.Grammar.Precedence

/-!
# Nodes and the tokens they are built from

A node of a program is built from tokens: its own signs and names, and between them the tokens of
its parts. `Node.Form` says which, one rule for each form and one layer at a time. `Node.Built` puts
the layers together, and asks of each node that its span goes from the start of its first token to
the end of its last one. Nothing else has to be known of a tree to see that spans are nested and
ordered as the nodes are: `Node.Built.nested`.
-/

namespace GradualScript

/-- A node of a program. An arm is a case of a switch, or the default, which has no value. -/
inductive Node where
  | global (global : Global)
  | function (function : Function)
  | statement (statement : Stmt)
  | arm (span : Span) (value : Option Expr) (body : List Stmt)
  | expression (expr : Expr)

/-- The arms of a switch, in order. -/
def Cases.arms : Cases → List Node
  | .default span body => [.arm span none body]
  | .case span value body others => .arm span (some value) body :: others.arms

namespace Node

/-- The text that a node was read from. -/
def span : Node → Span
  | .global declared => declared.span
  | .function declared => declared.span
  | .statement written => written.span
  | .arm span _ _ => span
  | .expression expr => expr.span

/-- The nodes right below an expression, in the order of the text. -/
def ofExpr : Expr → List Node
  | .literal .. | .access .. => []
  | .group _ _ inner => [expression inner]
  | .binary _ _ _ left right => [expression left, expression right]
  | .element _ _ _ _ offset => [expression offset]
  | .call _ _ _ _ arguments => arguments.map expression
  | .list _ _ elements => elements.map expression

/-- The nodes right below a statement, in the order of the text. -/
def ofStmt : Stmt → List Node
  | .expression _ expr => [expression expr]
  | .declaration _ _ _ initializer _ => initializer.toList.map expression
  | .assignment _ receiver value => [expression receiver, expression value]
  | .branch _ condition thenBody elseBody =>
    expression condition :: (thenBody.map statement ++ elseBody.map statement)
  | .switch _ subject cases => expression subject :: cases.arms
  | .loop _ condition body => expression condition :: body.map statement
  | .result _ value => [expression value]

/-- The nodes right below a node, in the order of the text. -/
def children : Node → List Node
  | .global declared => declared.initializer.toList.map expression
  | .function declared => declared.body.map statement
  | .statement written => ofStmt written
  | .arm _ value body => value.toList.map expression ++ body.map statement
  | .expression expr => ofExpr expr

end Node

/-- The nodes that a program consists of, in the order of the text. -/
def Program.nodes (program : Program) : List Node :=
  program.globals.map .global ++ program.functions.map .function

/-- Whether a node is one of a program, at whatever depth. -/
inductive Program.Has (program : Program) : Node → Prop
  | root {node : Node} (isRoot : node ∈ program.nodes) : program.Has node
  | child {node child : Node} (has : program.Has node) (isChild : child ∈ node.children) :
      program.Has child

/-- A part of a node: tokens that are its own, or a node below it. -/
inductive Piece where
  | words (tokens : List Token)
  | node (node : Node)

namespace Piece

/-- The nodes among some pieces. -/
def nodes : List Piece → List Node
  | [] => []
  | .words _ :: pieces => nodes pieces
  | .node below :: pieces => below :: nodes pieces

@[simp]
theorem nodes_append (first last : List Piece) :
    nodes (first ++ last) = nodes first ++ nodes last := by
  fun_induction nodes first with
  | case1 => rfl
  | case2 _ _ ih => exact ih
  | case3 below _ ih => exact congrArg (below :: ·) ih

/-- The pieces that are nothing but nodes. -/
def ofNodes (below : List Node) : List Piece := below.map .node

@[simp]
theorem nodes_ofNodes (below : List Node) : nodes (ofNodes below) = below := by
  induction below with
  | nil => rfl
  | cons node below ih => exact congrArg (node :: ·) ih

/-- Whether pieces are expressions with commas between them. -/
inductive Listed : List Expr → List Piece → Prop
  | none : Listed [] []
  | one {expr : Expr} : Listed [expr] [.node (.expression expr)]
  | more {expr next : Expr} {others : List Expr} {comma : Token} {pieces : List Piece}
      (separates : comma.reads "," = true) (further : Listed (next :: others) pieces) :
      Listed (expr :: next :: others) (.node (.expression expr) :: .words [comma] :: pieces)

/-- Whether pieces are an expression after an equals sign, or nothing. -/
inductive Initial : Option Expr → List Piece → Prop
  | absent : Initial none []
  | present {equals : Token} {expr : Expr} (assigns : equals.reads "=" = true) :
      Initial (some expr) [.words [equals], .node (.expression expr)]

theorem Listed.nodes {exprs : List Expr} {pieces : List Piece} (listed : Listed exprs pieces) :
    nodes pieces = exprs.map .expression := by
  induction listed with
  | none | one => rfl
  | more _ _ ih => simp [Piece.nodes, ih]

theorem Initial.nodes {initializer : Option Expr} {pieces : List Piece}
    (initial : Initial initializer pieces) :
    nodes pieces = initializer.toList.map .expression := by
  cases initial <;> rfl

end Piece

namespace Node

open Written
open Piece (Listed Initial ofNodes)

/-- Whether a node has certain pieces. -/
inductive Form : Node → List Piece → Prop
  | literal {span : Span} {ty : Option Ty} {value : Literal} {token : Token}
      (isLiteral : Parse.literal? token = some (.ok value)) :
      Form (.expression (.literal span ty value)) [.words [token]]
  | group {span : Span} {ty : Option Ty} {inner : Expr} {opener closer : Token}
      (opens : opener.reads "(" = true) (closes : closer.reads ")" = true) :
      Form (.expression (.group span ty inner))
        [.words [opener], .node (.expression inner), .words [closer]]
  | binary {span : Span} {ty : Option Ty} {operator : Operator} {left right : Expr}
      {sign : List Token} (written : operator.WrittenAs sign) :
      Form (.expression (.binary span ty operator left right))
        [.node (.expression left), .words sign, .node (.expression right)]
  | access {span : Span} {ty : Option Ty} {name : String} {binding : Option Variable}
      {token : Token} (names : token.Names name) :
      Form (.expression (.access span ty name binding)) [.words [token]]
  | element {span : Span} {ty : Option Ty} {name : String} {binding : Option Variable}
      {offset : Expr} {token opener closer : Token} (names : token.Names name)
      (opens : opener.reads "[" = true) (closes : closer.reads "]" = true) :
      Form (.expression (.element span ty name binding offset))
        [.words [token, opener], .node (.expression offset), .words [closer]]
  | call {span : Span} {ty : Option Ty} {name : String} {binding : Option Signature}
      {arguments : List Expr} {token opener closer : Token} {pieces : List Piece}
      (names : token.Names name) (opens : opener.reads "(" = true)
      (listed : Listed arguments pieces) (closes : closer.reads ")" = true) :
      Form (.expression (.call span ty name binding arguments))
        (.words [token, opener] :: (pieces ++ [.words [closer]]))
  | list {span : Span} {ty : Option Ty} {elements : List Expr} {opener closer : Token}
      {pieces : List Piece} (opens : opener.reads "[" = true) (listed : Listed elements pieces)
      (closes : closer.reads "]" = true) :
      Form (.expression (.list span ty elements))
        (.words [opener] :: (pieces ++ [.words [closer]]))
  | plain {span : Span} {expr : Expr} {semicolon : Token} (ends : semicolon.reads ";" = true) :
      Form (.statement (.expression span expr)) [.node (.expression expr), .words [semicolon]]
  | declaration {span : Span} {keyword name semicolon : Token} {types : List Token}
      {type : Option String} {initializer : Option Expr} {binding : Option Variable}
      {pieces : List Piece} (isKeyword : heads keyword .declaration)
      (isName : name.kind = .identifier) (typed : Optional ":" Name types type [])
      (initial : Initial initializer pieces) (ends : semicolon.reads ";" = true) :
      Form (.statement (.declaration span name.text type initializer binding))
        (.words (keyword :: name :: types) :: (pieces ++ [.words [semicolon]]))
  | assignment {span : Span} {receiver value : Expr} {equals semicolon : Token}
      (assigns : equals.reads "=" = true) (ends : semicolon.reads ";" = true) :
      Form (.statement (.assignment span receiver value))
        [.node (.expression receiver), .words [equals], .node (.expression value),
          .words [semicolon]]
  | branch {span : Span} {condition : Expr} {thenBody : List Stmt} {keyword opener closer : Token}
      (isKeyword : heads keyword .branch) (opens : opener.reads "DO" = true)
      (closes : closer.reads "END" = true) :
      Form (.statement (.branch span condition thenBody []))
        (.words [keyword] :: .node (.expression condition) :: .words [opener] ::
          (ofNodes (thenBody.map .statement) ++ [.words [closer]]))
  | branchElse {span : Span} {condition : Expr} {thenBody elseBody : List Stmt}
      {keyword opener divider closer : Token} (isKeyword : heads keyword .branch)
      (opens : opener.reads "DO" = true) (divides : divider.reads "ELSE" = true)
      (closes : closer.reads "END" = true) :
      Form (.statement (.branch span condition thenBody elseBody))
        (.words [keyword] :: .node (.expression condition) :: .words [opener] ::
          ((ofNodes (thenBody.map .statement) ++ .words [divider] ::
            ofNodes (elseBody.map .statement)) ++ [.words [closer]]))
  | switch {span : Span} {subject : Expr} {cases : Cases} {keyword closer : Token}
      (isKeyword : heads keyword .switch) (closes : closer.reads "END" = true) :
      Form (.statement (.switch span subject cases))
        (.words [keyword] :: .node (.expression subject) ::
          (ofNodes cases.arms ++ [.words [closer]]))
  | loop {span : Span} {condition : Expr} {body : List Stmt} {keyword opener closer : Token}
      (isKeyword : heads keyword .loop) (opens : opener.reads "DO" = true)
      (closes : closer.reads "END" = true) :
      Form (.statement (.loop span condition body))
        (.words [keyword] :: .node (.expression condition) :: .words [opener] ::
          (ofNodes (body.map .statement) ++ [.words [closer]]))
  | result {span : Span} {value : Expr} {keyword semicolon : Token}
      (isKeyword : heads keyword .result) (ends : semicolon.reads ";" = true) :
      Form (.statement (.result span value))
        [.words [keyword], .node (.expression value), .words [semicolon]]
  | case {span : Span} {value : Expr} {body : List Stmt} {keyword colon : Token}
      (isKeyword : keyword.reads "CASE" = true) (opens : colon.reads ":" = true) :
      Form (.arm span (some value) body)
        (.words [keyword] :: .node (.expression value) :: .words [colon] ::
          ofNodes (body.map .statement))
  | default {span : Span} {body : List Stmt} {keyword : Token}
      (isKeyword : keyword.reads "DEFAULT" = true) :
      Form (.arm span none body) (.words [keyword] :: ofNodes (body.map .statement))
  | global {span : Span} {isMutable : Bool} {initializer : Option Expr}
      {binding : Option Variable} {keyword name colon type semicolon : Token}
      {pieces : List Piece} (isKeyword : ["LIST", "VAR", "VAL"].any keyword.reads = true)
      (isName : name.kind = .identifier) (separates : colon.reads ":" = true)
      (isType : type.kind = .identifier) (initial : Initial initializer pieces)
      (ends : semicolon.reads ";" = true) :
      Form (.global ⟨span, name.text, type.text, isMutable, initializer, binding⟩)
        (.words [keyword, name, colon, type] :: (pieces ++ [.words [semicolon]]))
  | function {span : Span} {parameters : List Parameter} {type : Option String} {body : List Stmt}
      {binding : Option Signature} {keyword name bracket closing opener closer : Token}
      {listed types : List Token} (isKeyword : keyword.reads "FUN" = true)
      (isName : name.kind = .identifier) (brackets : bracket.reads "(" = true)
      (items : Items ")" OneParameter closing listed parameters [])
      (typed : Optional ":" Name types type []) (opens : opener.reads "DO" = true)
      (closes : closer.reads "END" = true) :
      Form (.function ⟨span, name.text, parameters, type, body, binding⟩)
        (.words (keyword :: name :: bracket :: (listed ++ (types ++ [opener]))) ::
          (ofNodes (body.map .statement) ++ [.words [closer]]))

/-- The nodes among the pieces of a node are those right below it. -/
theorem Form.nodes_eq {node : Node} {pieces : List Piece} (form : Form node pieces) :
    Piece.nodes pieces = node.children := by
  cases form with
  | literal | group | binary | access | element | plain | assignment | result => rfl
  | call _ _ listed => simp [Piece.nodes, listed.nodes, children, ofExpr]
  | list _ listed => simp [Piece.nodes, listed.nodes, children, ofExpr]
  | declaration _ _ _ initial => simp [Piece.nodes, initial.nodes, children, ofStmt]
  | branch | branchElse | switch | loop => simp [Piece.nodes, children, ofStmt]
  | case | default | function => simp [Piece.nodes, children]
  | global _ _ _ _ initial => simp [Piece.nodes, initial.nodes, children]

end Node

/-- Whether a span goes from the start of the first of some tokens to the end of the last one. -/
structure Span.Covers (span : Span) (tokens : List Token) : Prop where
  start_eq : tokens.head?.map (·.span.start) = some span.start
  stop_eq : tokens.getLast?.map (·.span.stop) = some span.stop

/-- Whether tokens are those of some pieces, one piece after the other. -/
inductive Piece.Assembled (built : Node → List Token → Prop) : List Piece → List Token → Prop
  | nil : Assembled built [] []
  | words {own tokens : List Token} {pieces : List Piece}
      (further : Assembled built pieces tokens) :
      Assembled built (.words own :: pieces) (own ++ tokens)
  | node {node : Node} {first tokens : List Token} {pieces : List Piece}
      (isBuilt : built node first) (further : Assembled built pieces tokens) :
      Assembled built (.node node :: pieces) (first ++ tokens)

/-- Whether a node is built from certain tokens and covers them, and so is each node below it. -/
inductive Node.Built : Node → List Token → Prop
  | intro {node : Node} {pieces : List Piece} {tokens : List Token} (form : Form node pieces)
      (assembled : Piece.Assembled Built pieces tokens) (covers : node.span.Covers tokens) :
      Built node tokens

theorem Node.Built.covers {node : Node} {tokens : List Token} (isBuilt : node.Built tokens) :
    node.span.Covers tokens := by
  cases isBuilt with
  | intro _ _ covers => exact covers

namespace Span

variable {span inner outer first second : Span} {tokens : List Token}

/-- Whether a span lies in another one. -/
def Within (inner outer : Span) : Prop :=
  outer.start.offset ≤ inner.start.offset ∧ inner.stop.offset ≤ outer.stop.offset

/-- Whether a span ends where another one starts, or before. -/
def Precedes (first second : Span) : Prop := first.stop.offset ≤ second.start.offset

namespace Covers

theorem exists_first (covers : span.Covers tokens) :
    ∃ token ∈ tokens, token.span.start = span.start := by
  rcases Option.map_eq_some_iff.mp covers.start_eq with ⟨token, found, start_eq⟩
  exact ⟨token, List.mem_of_head? found, start_eq⟩

theorem exists_last (covers : span.Covers tokens) :
    ∃ token ∈ tokens, token.span.stop = span.stop := by
  rcases Option.map_eq_some_iff.mp covers.stop_eq with ⟨token, found, stop_eq⟩
  exact ⟨token, List.mem_of_getLast? found, stop_eq⟩

theorem one (token : Token) : token.span.Covers [token] := ⟨rfl, rfl⟩

theorem cons {first last : Token} (ends : tokens.getLast? = some last) :
    Covers ⟨first.span.start, last.span.stop⟩ (first :: tokens) := by
  constructor
  · rfl
  · simp [List.getLast?_cons, ends]

theorem through {before after : List Token} (leftCovers : first.Covers before)
    (rightCovers : second.Covers after) (middle : List Token) :
    (first.through second).Covers (before ++ (middle ++ after)) := by
  rcases Option.map_eq_some_iff.mp leftCovers.start_eq with ⟨token, found, start_eq⟩
  rcases Option.map_eq_some_iff.mp rightCovers.stop_eq with ⟨last, lastFound, stop_eq⟩
  constructor
  · simp [List.head?_append, found, start_eq, Span.through]
  · simp [List.getLast?_append, lastFound, stop_eq, Span.through]

end Covers

end Span

/-- Whether tokens come one behind the other. -/
structure Token.Ordered (tokens : List Token) : Prop where
  forward : ∀ token ∈ tokens, token.span.start.offset < token.span.stop.offset
  apart : tokens.Pairwise (·.span.Precedes ·.span)

namespace Token.Ordered

variable {tokens part : List Token}

theorem ofPart (ordered : Ordered tokens) (isPart : part <:+: tokens) : Ordered part :=
  ⟨fun token found => ordered.forward token (isPart.subset found),
    ordered.apart.sublist isPart.sublist⟩

theorem start_le {token : Token} {span : Span} (ordered : Ordered tokens)
    (covers : span.Covers tokens) (found : token ∈ tokens) :
    span.start.offset ≤ token.span.start.offset := by
  rcases tokens with _ | ⟨first, others⟩
  · cases found
  have start_eq : first.span.start = span.start := Option.some.inj covers.start_eq
  rw [← start_eq]
  rcases List.mem_cons.mp found with rfl | later
  · exact Nat.le_refl _
  · have precedes : first.span.stop.offset ≤ token.span.start.offset :=
      (List.pairwise_cons.mp ordered.apart).1 token later
    have forward := ordered.forward first List.mem_cons_self
    omega

theorem le_stop {token : Token} {span : Span} (ordered : Ordered tokens)
    (covers : span.Covers tokens) (found : token ∈ tokens) :
    token.span.stop.offset ≤ span.stop.offset := by
  rcases tokens.eq_nil_or_concat with rfl | ⟨others, last, rfl⟩
  · cases found
  have stop_eq := covers.stop_eq
  rw [List.concat_eq_append] at *
  rw [List.getLast?_concat] at stop_eq
  rw [← show last.span.stop = span.stop from Option.some.inj stop_eq]
  rcases List.mem_append.mp found with earlier | isLast
  · have precedes : token.span.stop.offset ≤ last.span.start.offset :=
      (List.pairwise_append.mp ordered.apart).2.2 token earlier last (by simp)
    have forward := ordered.forward last (by simp)
    omega
  · rcases List.mem_singleton.mp isLast with rfl
    exact Nat.le_refl _

/-- What covers a part of some tokens lies in what covers them all. -/
theorem within {inner outer : Span} (ordered : Ordered tokens) (isPart : part <:+: tokens)
    (innerCovers : inner.Covers part) (outerCovers : outer.Covers tokens) :
    inner.Within outer := by
  rcases innerCovers.exists_first with ⟨first, firstFound, start_eq⟩
  rcases innerCovers.exists_last with ⟨last, lastFound, stop_eq⟩
  constructor
  · rw [← start_eq]
    exact ordered.start_le outerCovers (isPart.subset firstFound)
  · rw [← stop_eq]
    exact ordered.le_stop outerCovers (isPart.subset lastFound)

theorem forward_of_covers {span : Span} (ordered : Ordered tokens) (covers : span.Covers tokens) :
    span.start.offset < span.stop.offset := by
  rcases covers.exists_last with ⟨last, found, stop_eq⟩
  have starts := ordered.start_le covers found
  have forward := ordered.forward last found
  rw [stop_eq] at forward
  omega

end Token.Ordered

namespace Piece.Assembled

variable {pieces : List Piece} {tokens : List Token} {node child : Node}

theorem append {first last : List Piece} {before after : List Token}
    {built : Node → List Token → Prop} (firstAssembled : Assembled built first before)
    (lastAssembled : Assembled built last after) :
    Assembled built (first ++ last) (before ++ after) := by
  induction firstAssembled with
  | nil => exact lastAssembled
  | words _ ih =>
      rw [List.append_assoc]
      exact .words ih
  | node isBuilt _ ih =>
      rw [List.append_assoc]
      exact .node isBuilt ih

theorem ofWords {built : Node → List Token → Prop} (own : List Token) :
    Assembled built [.words own] own := by
  have assembled : Assembled built [.words own] (own ++ []) := .words .nil
  rwa [List.append_nil] at assembled

theorem ofNode {built : Node → List Token → Prop} (isBuilt : built node tokens) :
    Assembled built [.node node] tokens := by
  have assembled : Assembled built [.node node] (tokens ++ []) := .node isBuilt .nil
  rwa [List.append_nil] at assembled

/-- Each node among the pieces is built from a part of the tokens. -/
theorem exists_part (assembled : Assembled Node.Built pieces tokens)
    (isChild : child ∈ nodes pieces) : ∃ part, child.Built part ∧ part <:+: tokens := by
  induction assembled with
  | nil => cases isChild
  | words _ ih =>
      rcases ih isChild with ⟨part, isBuilt, isPart⟩
      exact ⟨part, isBuilt, isPart.trans (List.suffix_append ..).isInfix⟩
  | @node node first tokens pieces isBuilt _ ih =>
      rcases List.mem_cons.mp isChild with rfl | later
      · exact ⟨first, isBuilt, (List.prefix_append ..).isInfix⟩
      · rcases ih later with ⟨part, isBuilt, isPart⟩
        exact ⟨part, isBuilt, isPart.trans (List.suffix_append ..).isInfix⟩

/-- The nodes among the pieces come one behind the other, as their tokens do. -/
theorem precede (assembled : Assembled Node.Built pieces tokens)
    (ordered : Token.Ordered tokens) : (nodes pieces).Pairwise (·.span.Precedes ·.span) := by
  induction assembled with
  | nil => exact .nil
  | words _ ih => exact ih (ordered.ofPart (List.suffix_append ..).isInfix)
  | node isBuilt further ih =>
      refine List.pairwise_cons.mpr ⟨?_, ih (ordered.ofPart (List.suffix_append ..).isInfix)⟩
      intro later isLater
      rcases exists_part further isLater with ⟨part, laterBuilt, isPart⟩
      rcases isBuilt.covers.exists_last with ⟨last, lastFound, stop_eq⟩
      rcases laterBuilt.covers.exists_first with ⟨first, firstFound, start_eq⟩
      rw [Span.Precedes, ← stop_eq, ← start_eq]
      exact (List.pairwise_append.mp ordered.apart).2.2 last lastFound first
        (isPart.subset firstFound)

end Piece.Assembled

namespace Node.Built

variable {node child : Node} {tokens : List Token}

/-- A node with a first and a last token of its own. -/
theorem closed {pieces : List Piece} {first last : Token} {own : List Token}
    (assembled : Piece.Assembled Built pieces tokens)
    (form : Form node (.words (first :: own) :: (pieces ++ [.words [last]])))
    (span_eq : node.span = ⟨first.span.start, last.span.stop⟩) :
    Built node ((first :: own) ++ (tokens ++ [last])) := by
  refine .intro form (.words (assembled.append (.ofWords [last]))) ?_
  rw [span_eq]
  exact .cons (by simp [← List.append_assoc])

theorem exists_child (isBuilt : node.Built tokens) (isChild : child ∈ node.children) :
    ∃ part, child.Built part ∧ part <:+: tokens := by
  cases isBuilt with
  | intro form assembled _ =>
      rw [← form.nodes_eq] at isChild
      exact assembled.exists_part isChild

/-- The nodes below a node lie in it, one behind the other. -/
theorem nested (isBuilt : node.Built tokens) (ordered : Token.Ordered tokens) :
    (∀ child ∈ node.children, child.span.Within node.span) ∧
      node.children.Pairwise (·.span.Precedes ·.span) := by
  constructor
  · intro child isChild
    rcases isBuilt.exists_child isChild with ⟨part, childBuilt, isPart⟩
    exact ordered.within isPart childBuilt.covers isBuilt.covers
  · cases isBuilt with
    | intro form assembled _ =>
        rw [← form.nodes_eq]
        exact assembled.precede ordered

end Node.Built

namespace Program

variable {tokens : List Token} {program : Program} {node : Node}

/-- Whatever is somewhere in a program is built from tokens next to each other. -/
theorem Has.exists_part
    (assembled : Piece.Assembled Node.Built (Piece.ofNodes program.nodes) tokens)
    (has : program.Has node) : ∃ part, node.Built part ∧ part <:+: tokens := by
  induction has with
  | root isRoot =>
      rw [← Piece.nodes_ofNodes program.nodes] at isRoot
      exact assembled.exists_part isRoot
  | child _ isChild ih =>
      rcases ih with ⟨part, isBuilt, isPart⟩
      rcases isBuilt.exists_child isChild with ⟨childPart, childBuilt, isChildPart⟩
      exact ⟨childPart, childBuilt, isChildPart.trans isPart⟩

end Program

end GradualScript
