import DeclarativeOptions.Proofs.Grammar
import Mathlib.Tactic.SplitIfs

namespace DeclarativeOptions.Parser

open Grammar

-- A token leads from one state to another. The cases are the places at which it may stand: all that
-- a step may do is listed here once, and what steps keep is proved case by case.
inductive Takes (t : Token) : State → State → Prop where
  | value {frames : List Frame} {s' : State} (hstart : startValue? frames t = some s') :
      Takes t ⟨.value, frames⟩ s'
  | element {slots : List (Option Expr)} {frames : List Frame} {s' : State}
      (hstart : startValue? (.array slots :: frames) t = some s') : Takes t ⟨.slot slots, frames⟩ s'
  | hole {slots : List (Option Expr)} {frames : List Frame} (ht : t.kind = .comma) :
      Takes t ⟨.slot slots, frames⟩ ⟨.slot (none :: slots), frames⟩
  | arrayEnd {slots : List (Option Expr)} {frames : List Frame} (ht : t.kind = .rightBracket) :
      Takes t ⟨.slot slots, frames⟩ ⟨.after (.array slots.reverse), frames⟩
  | name {pairs : List (String × Expr)} {key : String} {frames : List Frame}
      (hname : PropertyName key t) : Takes t ⟨.property pairs, frames⟩ ⟨.named pairs key, frames⟩
  | objectEnd {pairs : List (String × Expr)} {frames : List Frame} (ht : t.kind = .rightBrace) :
      Takes t ⟨.property pairs, frames⟩ ⟨.after (.object pairs.reverse), frames⟩
  | colon {pairs : List (String × Expr)} {key : String} {frames : List Frame}
      (ht : t.kind = .colon) :
      Takes t ⟨.named pairs key, frames⟩ ⟨.value, .object pairs key :: frames⟩
  | after {v : Expr} {frames : List Frame} {s' : State} (hend : endValue? v frames t = some s') :
      Takes t ⟨.after v, frames⟩ s'
  | call {target : String} {frames : List Frame} (ht : t.kind = .leftParen) :
      Takes t ⟨.head target, frames⟩ ⟨.call target, frames⟩
  | argument {target : String} {frames : List Frame} (ht : t.kind = .stringLiteral) :
      Takes t ⟨.call target, frames⟩ ⟨.argument target t.text, frames⟩
  | callEnd {target argument : String} {frames : List Frame} (ht : t.kind = .rightParen) :
      Takes t ⟨.argument target argument, frames⟩ ⟨.chain ⟨.call target argument, []⟩, frames⟩
  | head {name : String} {frames : List Frame} {s' : State}
      (hextend : extendChain? ⟨.identifier name, []⟩ frames t = some s') :
      Takes t ⟨.head name, frames⟩ s'
  | chain {access : Access} {frames : List Frame} {s' : State}
      (hextend : extendChain? access frames t = some s') : Takes t ⟨.chain access, frames⟩ s'
  | read {access : Access} {frames : List Frame}
      (ht : t.kind = .identifier ∨ t.kind = .reservedWord) :
      Takes t ⟨.point access, frames⟩ ⟨.chain (access.push (.name t.text)), frames⟩
  | key {access : Access} {key : IndexKey} {frames : List Frame} (hkey : Key key t) :
      Takes t ⟨.bracket access, frames⟩ ⟨.key access key, frames⟩
  | keyEnd {access : Access} {key : IndexKey} {frames : List Frame}
      (ht : t.kind = .rightBracket) :
      Takes t ⟨.key access key, frames⟩ ⟨.chain (access.push (.index key)), frames⟩

variable {v : Expr} {access : Access} {frames : List Frame} {s s' : State} {t : Token}

theorem startValue_eq_some (h : startValue? frames t = some s') :
    (∃ v, Scalar v t ∧ s' = ⟨.after v, frames⟩) ∨
    (t.kind = .leftBrace ∧ frames.length < maxDepth ∧ s' = ⟨.property [], frames⟩) ∨
    (t.kind = .leftBracket ∧ frames.length < maxDepth ∧ s' = ⟨.slot [], frames⟩) ∨
    (t.kind = .identifier ∧ s' = ⟨.head t.text, frames⟩) := by
  unfold startValue? at h
  split at h
  · rename_i ht
    exact .inl ⟨_, .falseLiteral ht, (Option.some.inj h).symm⟩
  · rename_i ht
    exact .inl ⟨_, .trueLiteral ht, (Option.some.inj h).symm⟩
  · rename_i ht
    exact .inl ⟨_, .nullLiteral ht, (Option.some.inj h).symm⟩
  · rename_i ht
    obtain ⟨n, hn, rfl⟩ := Option.map_eq_some_iff.mp h
    exact .inl ⟨_, .number ht hn, rfl⟩
  · rename_i ht
    exact .inl ⟨_, .string ht, (Option.some.inj h).symm⟩
  · rename_i ht
    split_ifs at h with hlength
    exact .inr (.inl ⟨ht, hlength, (Option.some.inj h).symm⟩)
  · rename_i ht
    split_ifs at h with hlength
    exact .inr (.inr (.inl ⟨ht, hlength, (Option.some.inj h).symm⟩))
  · rename_i ht
    exact .inr (.inr (.inr ⟨ht, (Option.some.inj h).symm⟩))
  · simp at h

theorem endValue_eq_some (h : endValue? v frames t = some s') :
    (∃ slots outer, frames = .array slots :: outer ∧
      (t.kind = .comma ∧ s' = ⟨.slot (some v :: slots), outer⟩ ∨
        t.kind = .rightBracket ∧ s' = ⟨.after (.array (some v :: slots).reverse), outer⟩)) ∨
    ∃ pairs key outer, frames = .object pairs key :: outer ∧
      (t.kind = .comma ∧ s' = ⟨.property ((key, v) :: pairs), outer⟩ ∨
        t.kind = .rightBrace ∧ s' = ⟨.after (.object ((key, v) :: pairs).reverse), outer⟩) := by
  unfold endValue? at h
  split at h
  · rename_i slots outer ht
    exact .inl ⟨slots, outer, rfl, .inl ⟨ht, (Option.some.inj h).symm⟩⟩
  · rename_i slots outer ht
    exact .inl ⟨slots, outer, rfl, .inr ⟨ht, (Option.some.inj h).symm⟩⟩
  · rename_i pairs key outer ht
    exact .inr ⟨pairs, key, outer, rfl, .inl ⟨ht, (Option.some.inj h).symm⟩⟩
  · rename_i pairs key outer ht
    exact .inr ⟨pairs, key, outer, rfl, .inr ⟨ht, (Option.some.inj h).symm⟩⟩
  · simp at h

theorem extendChain_eq_some (h : extendChain? access frames t = some s') :
    (t.kind = .dot ∧ s' = ⟨.point access, frames⟩) ∨
    (t.kind = .leftBracket ∧ s' = ⟨.bracket access, frames⟩) ∨
    endValue? (.access access) frames t = some s' := by
  unfold extendChain? at h
  split at h
  · rename_i ht
    exact .inl ⟨ht, (Option.some.inj h).symm⟩
  · rename_i ht
    exact .inr (.inl ⟨ht, (Option.some.inj h).symm⟩)
  · exact .inr (.inr h)

theorem propertyName_eq_some {key : String} :
    propertyName? t = some key ↔ PropertyName key t := by
  constructor
  · intro h
    unfold propertyName? at h
    split at h
    case h_8 ht =>
      obtain ⟨n, hn, rfl⟩ := Option.map_eq_some_iff.mp h
      exact .number ht hn
    case h_9 => simp at h
    all_goals
      rename_i ht
      obtain rfl := Option.some.inj h
      exact .text (by simp [ht])
  · intro h
    cases h with
    | text ht =>
      simp only [List.mem_cons, List.not_mem_nil, or_false] at ht
      rcases ht with ht | ht | ht | ht | ht | ht | ht <;> simp only [propertyName?, ht]
    | number ht hn => simp only [propertyName?, ht, hn, Option.map_some]

theorem indexKey_eq_some {key : IndexKey} : indexKey? t = some key ↔ Key key t := by
  constructor
  · intro h
    unfold indexKey? at h
    split at h
    · rename_i ht
      obtain rfl := Option.some.inj h
      exact .string ht
    · rename_i ht
      obtain ⟨n, hn, rfl⟩ := Option.map_eq_some_iff.mp h
      exact .number ht hn
    · simp at h
  · intro h
    cases h with
    | string ht => simp only [indexKey?, ht]
    | number ht hn => simp only [indexKey?, ht, hn, Option.map_some]

theorem takes_of_step (h : s.step? t = some s') : Takes t s s' := by
  obtain ⟨mode, frames⟩ := s
  cases mode with
  | value => exact .value h
  | after v => exact .after h
  | chain access => exact .chain h
  | property pairs =>
    simp only [State.step?] at h
    split_ifs at h with ht
    · obtain rfl := Option.some.inj h
      exact .objectEnd ht
    · obtain ⟨key, hkey, rfl⟩ := Option.map_eq_some_iff.mp h
      exact .name (propertyName_eq_some.mp hkey)
  | named pairs key =>
    simp only [State.step?] at h
    split_ifs at h with ht
    obtain rfl := Option.some.inj h
    exact .colon ht
  | slot slots =>
    simp only [State.step?] at h
    split_ifs at h with hclosing hcomma
    · obtain rfl := Option.some.inj h
      exact .arrayEnd hclosing
    · obtain rfl := Option.some.inj h
      exact .hole hcomma
    · exact .element h
  | head name =>
    simp only [State.step?] at h
    split_ifs at h with ht
    · obtain rfl := Option.some.inj h
      exact .call ht
    · exact .head h
  | call target =>
    simp only [State.step?] at h
    split_ifs at h with ht
    obtain rfl := Option.some.inj h
    exact .argument ht
  | argument target argument =>
    simp only [State.step?] at h
    split_ifs at h with ht
    obtain rfl := Option.some.inj h
    exact .callEnd ht
  | point access =>
    simp only [State.step?] at h
    split_ifs at h with ht
    obtain rfl := Option.some.inj h
    exact .read ht
  | bracket access =>
    obtain ⟨key, hkey, rfl⟩ := Option.map_eq_some_iff.mp h
    exact .key (indexKey_eq_some.mp hkey)
  | key access key =>
    simp only [State.step?] at h
    split_ifs at h with ht
    obtain rfl := Option.some.inj h
    exact .keyEnd ht

end DeclarativeOptions.Parser
