import DeclarativeOptions.Parser.State

namespace DeclarativeOptions

namespace Expr

mutual

-- How many array and object literals of a tree are open at once
def nesting : Expr → Nat
  | array slots => slotsNesting slots + 1
  | object pairs => pairsNesting pairs + 1
  | _ => 0
termination_by structural e => e

def slotsNesting : List (Option Expr) → Nat
  | [] => 0
  | none :: rest => slotsNesting rest
  | some e :: rest => max (nesting e) (slotsNesting rest)
termination_by structural slots => slots

def pairsNesting : List (String × Expr) → Nat
  | [] => 0
  | (_, e) :: rest => max (nesting e) (pairsNesting rest)
termination_by structural pairs => pairs

end

end Expr

namespace Grammar

-- A value of one token
inductive Scalar : Expr → Token → Prop where
  | falseLiteral {t : Token} (ht : t.kind = .falseLiteral) : Scalar (.boolean false) t
  | nullLiteral {t : Token} (ht : t.kind = .nullLiteral) : Scalar .null t
  | trueLiteral {t : Token} (ht : t.kind = .trueLiteral) : Scalar (.boolean true) t
  | string {t : Token} (ht : t.kind = .stringLiteral) : Scalar (.string t.text) t
  | number {t : Token} {n : Number} (ht : t.kind = .numberLiteral) (hn : t.number? = some n) :
      Scalar (.number n) t

-- A key between brackets
inductive Key : IndexKey → Token → Prop where
  | string {t : Token} (ht : t.kind = .stringLiteral) : Key (.name t.text) t
  | number {t : Token} {n : Number} (ht : t.kind = .numberLiteral) (hn : t.number? = some n) :
      Key (.number n) t

-- The name of a property
inductive PropertyName : String → Token → Prop where
  | text {t : Token} (ht : t.kind ∈ [TokenKind.identifier, .reservedWord, .thisKeyword,
      .trueLiteral, .falseLiteral, .nullLiteral, .stringLiteral]) : PropertyName t.text t
  | number {t : Token} {n : Number} (ht : t.kind = .numberLiteral) (hn : t.number? = some n) :
      PropertyName n.key t

-- Where the pairs of an object end no name begins
theorem propertyName_kind {key : String} {t : Token} (h : PropertyName key t) :
    t.kind ≠ .rightBrace := by
  intro hbrace
  cases h <;> simp_all

-- The head of a chain; only a head may be called
inductive Start : Head → List Token → Prop where
  | identifier {t : Token} (ht : t.kind = .identifier) : Start (.identifier t.text) [t]
  | call {t opening argument closing : Token} (ht : t.kind = .identifier)
      (hopening : opening.kind = .leftParen) (hargument : argument.kind = .stringLiteral)
      (hclosing : closing.kind = .rightParen) :
      Start (.call t.text argument.text) [t, opening, argument, closing]

-- One read behind the head of a chain
inductive Suffix : Accessor → List Token → Prop where
  | name {point t : Token} (hpoint : point.kind = .dot)
      (ht : t.kind = .identifier ∨ t.kind = .reservedWord) : Suffix (.name t.text) [point, t]
  | index {key : IndexKey} {opening t closing : Token} (hopening : opening.kind = .leftBracket)
      (hkey : Key key t) (hclosing : closing.kind = .rightBracket) :
      Suffix (.index key) [opening, t, closing]

inductive Suffixes : List Accessor → List Token → Prop where
  | nil : Suffixes [] []
  | cons {read : Accessor} {reads : List Accessor} {tokens rest : List Token}
      (hread : Suffix read tokens) (hreads : Suffixes reads rest) :
      Suffixes (read :: reads) (tokens ++ rest)

-- What a derivation may be of, with what it means
inductive Phrase where
  | value (e : Expr)
  | elements (slots : List (Option Expr))
  | members (pairs : List (String × Expr))

-- Between brackets a comma behind a value only separates, and every other comma is a hole.
-- Between braces the pairs are separated by commas, with one more comma allowed behind the last.
inductive Derives : Phrase → List Token → Prop where
  | scalar {e : Expr} {t : Token} (h : Scalar e t) : Derives (.value e) [t]
  | access {head : Head} {reads : List Accessor} {start suffixes : List Token}
      (hstart : Start head start) (hreads : Suffixes reads suffixes) :
      Derives (.value (.access ⟨head, reads⟩)) (start ++ suffixes)
  | array {slots : List (Option Expr)} {opening closing : Token} {tokens : List Token}
      (hopening : opening.kind = .leftBracket) (hslots : Derives (.elements slots) tokens)
      (hclosing : closing.kind = .rightBracket) :
      Derives (.value (.array slots)) (opening :: tokens ++ [closing])
  | object {pairs : List (String × Expr)} {opening closing : Token} {tokens : List Token}
      (hopening : opening.kind = .leftBrace) (hpairs : Derives (.members pairs) tokens)
      (hclosing : closing.kind = .rightBrace) :
      Derives (.value (.object pairs)) (opening :: tokens ++ [closing])
  | noElements : Derives (.elements []) []
  | hole {slots : List (Option Expr)} {comma : Token} {rest : List Token}
      (hcomma : comma.kind = .comma) (hrest : Derives (.elements slots) rest) :
      Derives (.elements (none :: slots)) (comma :: rest)
  | lastElement {e : Expr} {tokens : List Token} (he : Derives (.value e) tokens) :
      Derives (.elements [some e]) tokens
  | element {e : Expr} {slots : List (Option Expr)} {comma : Token} {tokens rest : List Token}
      (he : Derives (.value e) tokens) (hcomma : comma.kind = .comma)
      (hrest : Derives (.elements slots) rest) :
      Derives (.elements (some e :: slots)) (tokens ++ comma :: rest)
  | noMembers : Derives (.members []) []
  | lastMember {key : String} {e : Expr} {name colon : Token} {tokens : List Token}
      (hname : PropertyName key name) (hcolon : colon.kind = .colon)
      (he : Derives (.value e) tokens) :
      Derives (.members [(key, e)]) (name :: colon :: tokens)
  | member {key : String} {e : Expr} {pairs : List (String × Expr)} {name colon comma : Token}
      {tokens rest : List Token} (hname : PropertyName key name) (hcolon : colon.kind = .colon)
      (he : Derives (.value e) tokens) (hcomma : comma.kind = .comma)
      (hrest : Derives (.members pairs) rest) :
      Derives (.members ((key, e) :: pairs)) (name :: colon :: tokens ++ comma :: rest)

end Grammar

end DeclarativeOptions
