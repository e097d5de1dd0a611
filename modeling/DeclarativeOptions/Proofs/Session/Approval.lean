import DeclarativeOptions.Session.Operation

namespace DeclarativeOptions

-- Marking approves the value and whatever has the same identity
theorem Approvals.supports_mark (approvals : Approvals) (v w : Value) :
    (approvals.mark w).supports v = true ↔
      approvals.supports v = true ∨ w.capability? = v.capability? := by
  unfold Approvals.mark Approvals.supports
  cases hw : w.capability? with
  | none => cases hv : v.capability? <;> simp
  | some marked =>
    cases hv : v.capability? with
    | none => simp
    | some lent =>
      simp only [List.contains_cons, Bool.or_eq_true, beq_iff_eq, Option.some.injEq]
      rw [or_comm, @eq_comm _ lent]

namespace Session

variable {s s' t : Session} {op : Operation} {ops : List Operation} {v w : Value}
  {lent : Capability}

-- The capability that an answer hands out
def Answer.made? : Answer → Option Capability
  | .defined lent => some lent
  | _ => none

-- The value that an operation marks. What is supported from the start is marked when it is defined,
-- and is what the operation answers.
def marked? (s : Session) : Operation → Option Value
  | .mark v => some v
  | .defineSupported f => (s.perform (.defineSupported f)).2.made?.map Value.capability
  | _ => none

-- Whether this is so of one of the operations, in the session that it finds
def Happens (s : Session) (ops : List Operation) (P : Session → Operation → Prop) : Prop :=
  ∃ before op later, ops = before ++ op :: later ∧ P (s.after before) op

-- Whether a value of the same identity is marked in the course of the operations
def Marks (s : Session) (ops : List Operation) (v : Value) : Prop :=
  s.Happens ops fun t op => ∃ w, t.marked? op = some w ∧ w.capability? = v.capability?

-- Whether one of the operations answers with the capability. A host gets hold of one in no other
-- way.
def Issues (s : Session) (ops : List Operation) (lent : Capability) : Prop :=
  s.Happens ops fun t op => (t.perform op).2 = .defined lent

-- Whether operations mark only what has been answered by then
def MarksIssued (s : Session) (ops : List Operation) : Prop :=
  ∀ before later lent, ops = before ++ .mark (.capability lent) :: later → s.Issues before lent

def Operation.creates : Operation → Bool
  | .define _ | .defineSupported _ | .defineGlobal _ | .wrapGlobal _ => true
  | _ => false

-- Whether a capability is what an operation was to make in the session that it found: it does what
-- the function does, or has the properties of the scope or of the object that was wrapped
def Embodies (t s : Session) (lent : Capability) : Operation → Prop
  | .define f | .defineSupported f =>
    ∃ function, lent = .function function ∧ t.host.call function = f
  | .defineGlobal scope =>
    ∃ identity, lent = .globalObject identity ∧ t.host.lookup identity = scope
  | .wrapGlobal wrapped =>
    ∃ identity, lent = .globalObject identity ∧ t.host.lookup identity = s.host.lookup wrapped
  | _ => False

-- What it means that an operation makes a capability behind others: it answers with one that nobody
-- has had before, that has not been approved under another name, and that stays what it is
structure Makes (ops : List Operation) (op : Operation) (lent : Capability) : Prop where
  answers : ((start.after ops).perform op).2 = .defined lent
  fresh : ¬start.Issues ops lent
  unapproved : start.MarksIssued ops → (start.after ops).supports (.capability lent) = false
  embodies (more : List Operation) :
    (start.after (ops ++ op :: more)).Embodies (start.after ops) lent op

-- The capabilities that a session knows
def Defines (s : Session) : Capability → Prop
  | .function function => function < s.functions.length
  | .globalObject identity => identity < s.globals.length

theorem after_append (s : Session) (ops more : List Operation) :
    s.after (ops ++ more) = (s.after ops).after more := List.foldl_append

theorem after_concat (s : Session) (ops : List Operation) (op : Operation) :
    s.after (ops ++ [op]) = ((s.after ops).perform op).1 := after_append s ops [op]

theorem happens_cons {P : Session → Operation → Prop} :
    s.Happens (op :: ops) P ↔ P s op ∨ (s.perform op).1.Happens ops P := by
  constructor
  · rintro ⟨before, op', later, hops, h⟩
    cases before with
    | nil =>
      obtain ⟨rfl, rfl⟩ := List.cons.inj hops
      exact .inl h
    | cons first before =>
      obtain ⟨rfl, rfl⟩ := List.cons.inj hops
      exact .inr ⟨before, op', later, rfl, h⟩
  · rintro (h | ⟨before, op', later, rfl, h⟩)
    · exact ⟨[], op, ops, rfl, h⟩
    · exact ⟨op :: before, op', later, rfl, h⟩

theorem approvals_perform (s : Session) (op : Operation) : (s.perform op).1.approvals =
    match s.marked? op with
    | some w => s.approvals.mark w
    | none => s.approvals := by
  cases op <;> rfl

theorem supports_perform : (s.perform op).1.supports v = true ↔
    s.supports v = true ∨ ∃ w, s.marked? op = some w ∧ w.capability? = v.capability? := by
  rw [supports, approvals_perform]
  cases hmarked : s.marked? op with
  | none => simp [supports]
  | some w => simp [supports, Approvals.supports_mark]

theorem supports_after (s : Session) (ops : List Operation) (v : Value) :
    (s.after ops).supports v = true ↔ s.supports v = true ∨ s.Marks ops v := by
  induction ops generalizing s with
  | nil => simp [after, Marks, Happens]
  | cons op ops ih =>
    change ((s.perform op).1.after ops).supports v = true ↔ _
    rw [ih, supports_perform, Marks, Marks, happens_cons, or_assoc]

private theorem defines_define (f : HostFunction) :
    (s.define f).1.Defines lent ↔ s.Defines lent ∨ .function (s.define f).2 = lent := by
  cases lent with
  | function function =>
    simp only [define, Defines, List.length_append, List.length_singleton,
      Capability.function.injEq]
    omega
  | globalObject identity => simp [define, Defines]

private theorem defines_defineGlobal (scope : Scope) : (s.defineGlobal scope).1.Defines lent ↔
    s.Defines lent ∨ .globalObject (s.defineGlobal scope).2 = lent := by
  cases lent with
  | function function => simp [defineGlobal, Defines]
  | globalObject identity =>
    simp only [defineGlobal, Defines, List.length_append, List.length_singleton,
      Capability.globalObject.injEq]
    omega

-- A session knows what it has known before and what it has answered with
theorem defines_perform (s : Session) (op : Operation) (lent : Capability) :
    (s.perform op).1.Defines lent ↔ s.Defines lent ∨ (s.perform op).2 = .defined lent := by
  cases op with
  | define f | defineSupported f =>
    have h := @defines_define s lent f
    rwa [← Answer.defined.injEq] at h
  | defineGlobal scope =>
    have h := @defines_defineGlobal s lent scope
    rwa [← Answer.defined.injEq] at h
  | wrapGlobal identity =>
    have h := @defines_defineGlobal s lent (s.host.lookup identity)
    rwa [← Answer.defined.injEq] at h
  | _ => exact (or_iff_left nofun).symm

-- Every definition makes a new capability
theorem new_of_defined (h : (s.perform op).2 = .defined lent) :
    ¬s.Defines lent ∧ (s.perform op).1.Defines lent := by
  refine ⟨?_, (defines_perform s op lent).mpr (.inr h)⟩
  cases op with
  | define f | defineSupported f =>
    obtain rfl := Answer.defined.inj h
    exact Nat.lt_irrefl _
  | defineGlobal scope | wrapGlobal identity =>
    obtain rfl := Answer.defined.inj h
    exact Nat.lt_irrefl _
  | _ => exact nomatch h

theorem defines_after (s : Session) (ops : List Operation) (lent : Capability) :
    (s.after ops).Defines lent ↔ s.Defines lent ∨ s.Issues ops lent := by
  induction ops generalizing s with
  | nil => simp [after, Issues, Happens]
  | cons op ops ih =>
    change ((s.perform op).1.after ops).Defines lent ↔ _
    rw [ih, defines_perform, Issues, Issues, happens_cons, or_assoc]

theorem defines_start (lent : Capability) : ¬start.Defines lent := by
  cases lent with
  | function function => exact Nat.not_lt_zero function
  | globalObject identity => exact Nat.not_lt_zero identity

-- What is answered later on has not been answered before
theorem not_issues_of_defined (h : ((start.after ops).perform op).2 = .defined lent) :
    ¬start.Issues ops lent :=
  fun hissues => (new_of_defined h).1 ((defines_after start ops lent).mpr (.inr hissues))

theorem Issues.append (h : s.Issues ops lent) (more : List Operation) :
    s.Issues (ops ++ more) lent := by
  obtain ⟨before, op, later, rfl, hop⟩ := h
  exact ⟨before, op, later ++ more, by simp, hop⟩

private theorem eq_of_capability (h : w.capability? = (Value.capability lent).capability?) :
    w = .capability lent := by
  cases w <;> simp_all [Value.capability?]

-- Nothing is approved before it has been answered
theorem issues_of_supports (hops : start.MarksIssued ops)
    (h : (start.after ops).supports (.capability lent) = true) : start.Issues ops lent := by
  rcases (supports_after start ops _).mp h with h | ⟨before, op, later, rfl, w, hmarked, hw⟩
  · exact absurd h Bool.false_ne_true
  · obtain rfl := eq_of_capability hw
    cases op with
    | mark v =>
      obtain rfl := Option.some.inj hmarked
      exact (hops before later lent rfl).append _
    | defineSupported f =>
      obtain rfl := Value.capability.inj (Option.some.inj hmarked)
      exact ⟨before, _, later, rfl, rfl⟩
    | _ => simp [marked?] at hmarked

-- What has been defined stays in its place
structure Extends (t s : Session) : Prop where
  functions : s.functions <+: t.functions
  globals : s.globals <+: t.globals

theorem extends_perform (s : Session) (op : Operation) : (s.perform op).1.Extends s := by
  cases op with
  | define f | defineSupported f => exact ⟨List.prefix_append _ _, List.prefix_rfl⟩
  | defineGlobal scope | wrapGlobal identity => exact ⟨List.prefix_rfl, List.prefix_append _ _⟩
  | _ => exact ⟨List.prefix_rfl, List.prefix_rfl⟩

theorem extends_after (s : Session) (ops : List Operation) : (s.after ops).Extends s := by
  induction ops generalizing s with
  | nil => exact ⟨List.prefix_rfl, List.prefix_rfl⟩
  | cons op ops ih =>
    have hstep := extends_perform s op
    have hrest := ih (s.perform op).1
    exact ⟨hstep.functions.trans hrest.functions, hstep.globals.trans hrest.globals⟩

theorem Extends.call {function : Nat} (h : t.Extends s)
    (hdefines : s.Defines (.function function)) : t.host.call function = s.host.call function := by
  obtain ⟨more, hmore⟩ := h.functions
  simp only [host, ← hmore, List.getElem?_append_left hdefines]

theorem Extends.lookup {identity : Nat} (h : t.Extends s)
    (hdefines : s.Defines (.globalObject identity)) :
    t.host.lookup identity = s.host.lookup identity := by
  obtain ⟨more, hmore⟩ := h.globals
  simp only [host, ← hmore, List.getElem?_append_left hdefines]

-- What an operation makes is what it was to make
private theorem exists_embodies (s : Session) (hop : op.creates = true) :
    ∃ lent, (s.perform op).2 = .defined lent ∧ (s.perform op).1.Embodies s lent op := by
  cases op with
  | define f | defineSupported f =>
    refine ⟨_, rfl, _, rfl, ?_⟩
    simp [perform, defineSupported, define, mark, host]
  | defineGlobal scope | wrapGlobal identity =>
    refine ⟨_, rfl, _, rfl, ?_⟩
    simp [perform, wrapGlobal, defineGlobal, host]
  | _ => simp [Operation.creates] at hop

private theorem Embodies.of_extends (h : s'.Embodies s lent op) (hdefines : s'.Defines lent)
    (hextends : t.Extends s') : t.Embodies s lent op := by
  cases op with
  | define f | defineSupported f =>
    obtain ⟨function, rfl, hcall⟩ := h
    exact ⟨function, rfl, (hextends.call hdefines).trans hcall⟩
  | defineGlobal scope | wrapGlobal identity =>
    obtain ⟨identity, rfl, hlookup⟩ := h
    exact ⟨identity, rfl, (hextends.lookup hdefines).trans hlookup⟩
  | _ => exact h

theorem exists_makes (ops : List Operation) (hop : op.creates = true) :
    ∃ lent, Makes ops op lent := by
  obtain ⟨lent, hanswers, hembodies⟩ := exists_embodies (start.after ops) hop
  have hfresh := not_issues_of_defined hanswers
  refine ⟨lent, hanswers, hfresh, fun hops => ?_, fun more => ?_⟩
  · exact Bool.eq_false_iff.mpr fun h => hfresh (issues_of_supports hops h)
  · rw [after_append]
    exact hembodies.of_extends (new_of_defined hanswers).2 (extends_after _ more)

theorem supports_start (v : Value) : start.supports v = true ↔ v.capability? = none := by
  unfold supports start Approvals.supports Approvals.empty
  cases v.capability? <;> simp

private theorem supports_congr (h : w.capability? = v.capability?) :
    s.supports w = s.supports v := by
  rw [supports, supports, Approvals.supports, Approvals.supports, h]

theorem supports_mark : (s.mark w).supports v = true ↔
    s.supports v = true ∨ w.capability? = v.capability? :=
  Approvals.supports_mark s.approvals v w

-- A mark of what is supported already changes nothing
theorem supports_mark_of_supports (h : s.supports w = true) (v : Value) :
    (s.mark w).supports v = s.supports v := by
  rw [Bool.eq_iff_iff, supports_mark]
  exact or_iff_left_of_imp fun hw => (supports_congr hw).symm.trans h

private theorem marks_map_mark {values : List Value} :
    s.Marks (values.map .mark) v ↔ ∃ w ∈ values, w.capability? = v.capability? := by
  induction values generalizing s with
  | nil => simp [Marks, Happens]
  | cons w values ih =>
    have hstep : s.Marks ((w :: values).map .mark) v ↔
        (∃ marked, s.marked? (.mark w) = some marked ∧ marked.capability? = v.capability?) ∨
          (s.mark w).Marks (values.map .mark) v := happens_cons
    rw [hstep, ih]
    simp [marked?]

-- Two capabilities are approved each by itself
theorem supports_mark_of_ne {other : Capability} (hne : lent ≠ other) :
    (s.mark (.capability lent)).supports (.capability other) = s.supports (.capability other) := by
  rw [Bool.eq_iff_iff, supports_mark]
  exact or_iff_left fun h => hne (Value.capability.inj (eq_of_capability h))

-- At every moment a value is supported if it is data, or if it or another one of its identity has
-- been marked before. So what has been approved stays approved, only marks approve anything, and a
-- mark of what is supported already changes nothing; nor does the order of marks. What is made is
-- new, whether or not it wraps something, so that a global object and the wrapper of it are
-- approved each by itself.
theorem supports_exactly_marked (ops : List Operation) :
    (∀ v, ((start.after ops).perform (.supports v)).2 = .supports true ↔
      v.capability? = none ∨ start.Marks ops v) ∧
    (∀ v more, (start.after ops).supports v = true →
      (start.after (ops ++ more)).supports v = true) ∧
    (∀ op, (start.after ops).marked? op = none →
      (start.after (ops ++ [op])).approvals = (start.after ops).approvals) ∧
    (∀ v w, (start.after ops).supports w = true →
      (start.after (ops ++ [.mark w])).supports v = (start.after ops).supports v) ∧
    (∀ v (marks marks' : List Value), marks.Perm marks' →
      (start.after (ops ++ marks.map .mark)).supports v =
        (start.after (ops ++ marks'.map .mark)).supports v) ∧
    (∀ op, op.creates = true → ∃ lent, Makes ops op lent) ∧
    ∀ identity wrapped wrapper, wrapped = .globalObject identity → start.Issues ops wrapped →
      ((start.after ops).perform (.wrapGlobal identity)).2 = .defined wrapper →
      (start.MarksIssued ops →
        (start.after (ops ++ [.wrapGlobal identity, .mark (.capability wrapped)])).supports
          (.capability wrapper) = false) ∧
      ∀ more,
        let later := ops ++ .wrapGlobal identity :: more
        (start.after (later ++ [.mark (.capability wrapped)])).supports (.capability wrapper) =
          (start.after later).supports (.capability wrapper) ∧
        (start.after (later ++ [.mark (.capability wrapper)])).supports (.capability wrapped) =
          (start.after later).supports (.capability wrapped) := by
  refine ⟨fun v => ?_, fun v more h => ?_, fun op h => ?_, fun v w h => ?_,
    fun v marks marks' h => ?_, fun op => exists_makes ops, ?_⟩
  · rw [← supports_start, ← supports_after]
    exact ⟨Answer.supports.inj, congrArg Answer.supports⟩
  · rw [after_append]
    exact (supports_after _ more v).mpr (.inl h)
  · rw [after_concat, approvals_perform, h]
  · rw [after_concat]
    exact supports_mark_of_supports h v
  · rw [Bool.eq_iff_iff, after_append, after_append, supports_after (start.after ops),
      supports_after (start.after ops), marks_map_mark, marks_map_mark]
    simp only [h.mem_iff]
  · intro identity wrapped wrapper _ hissues hanswers
    have hfresh := not_issues_of_defined hanswers
    have hne : wrapped ≠ wrapper := by
      rintro rfl
      exact hfresh hissues
    refine ⟨fun hops => ?_, fun more => ⟨?_, ?_⟩⟩
    · rw [after_append]
      apply (supports_mark_of_ne hne).trans
      exact Bool.eq_false_iff.mpr fun h => hfresh (issues_of_supports hops h)
    · rw [after_concat]
      exact supports_mark_of_ne hne
    · rw [after_concat]
      exact supports_mark_of_ne hne.symm

-- A global object that is approved before it is wrapped: it stays approved, and the wrapper of it,
-- which has the same properties, is not. Both identities are what the session answers with.
theorem supports_exactly_marked_wrapper : ∃ wrapped wrapper,
    let ops : List Operation :=
      [.defineGlobal fun _ => some .null, .mark (.capability (.globalObject wrapped))]
    (start.perform (.defineGlobal fun _ => some .null)).2 = .defined (.globalObject wrapped) ∧
    ((start.after ops).perform (.wrapGlobal wrapped)).2 = .defined (.globalObject wrapper) ∧
    (start.after (ops ++ [.wrapGlobal wrapped])).host.lookup wrapper = (fun _ => some .null) ∧
    (start.after (ops ++ [.wrapGlobal wrapped])).supports (.capability (.globalObject wrapped)) =
      true ∧
    (start.after (ops ++ [.require (.capability (.globalObject wrapper))])).approvals =
      (start.after ops).approvals ∧
    (start.after (ops ++ [.mark .null, .mark (.capability (.globalObject wrapped))])).supports
      (.capability (.globalObject wrapped)) = true ∧
    (start.after (ops ++ [.wrapGlobal wrapped, .mark (.capability (.globalObject wrapped))])).supports
      (.capability (.globalObject wrapper)) = false := by
  obtain ⟨-, -, -, -, -, hmakes, -⟩ := supports_exactly_marked []
  obtain ⟨_, hwrapped⟩ := hmakes (.defineGlobal fun _ => some .null) rfl
  obtain ⟨wrapped, rfl, -⟩ := hwrapped.embodies []
  let ops : List Operation :=
    [.defineGlobal fun _ => some .null, .mark (.capability (.globalObject wrapped))]
  obtain ⟨hsupports, hkeeps, honly, -, -, hmakes, hapart⟩ := supports_exactly_marked ops
  obtain ⟨_, hwrapper⟩ := hmakes (.wrapGlobal wrapped) rfl
  obtain ⟨wrapper, rfl, hlookup⟩ := hwrapper.embodies []
  obtain ⟨_, hsame, hscope⟩ := hwrapped.embodies [.mark (.capability (.globalObject wrapped))]
  obtain rfl := Capability.globalObject.inj hsame
  have hissues : start.Issues ops (.globalObject wrapped) := ⟨[], _, _, rfl, hwrapped.answers⟩
  have hmarks : start.MarksIssued ops := by
    intro before later lent hops
    rcases before with - | ⟨_, - | ⟨_, before⟩⟩
    · simp [ops] at hops
    · obtain ⟨rfl, hrest⟩ := List.cons.inj hops
      obtain ⟨hmark, -⟩ := List.cons.inj hrest
      obtain rfl := Value.capability.inj (Operation.mark.inj hmark)
      exact ⟨[], _, [], rfl, hwrapped.answers⟩
    · simp [ops] at hops
  have happroved : (start.after ops).supports (.capability (.globalObject wrapped)) = true := by
    refine Answer.supports.inj ((hsupports _).mpr (.inr ?_))
    exact ⟨[.defineGlobal fun _ => some .null], _, [], rfl, _, rfl, rfl⟩
  refine ⟨wrapped, wrapper, hwrapped.answers, hwrapper.answers, hlookup.trans hscope,
    hkeeps _ _ happroved, honly _ rfl, hkeeps _ _ happroved, ?_⟩
  exact (hapart wrapped _ _ rfl hissues hwrapper.answers).1 hmarks

end Session

end DeclarativeOptions
