import DeclarativeOptions.Proofs.Evaluation.Release

namespace DeclarativeOptions

-- The value that has no properties to read
def Receiver.value : Receiver → Value
  | undefined => .undefined
  | null => .null

-- The chain up to one of its reads
def Access.upTo (chain : Access) (count : Nat) : Access := ⟨chain.head, chain.tail.take count⟩

theorem Access.upTo_upTo (chain : Access) {i j : Nat} (h : i ≤ j) :
    (chain.upTo j).upTo i = chain.upTo i := by
  simp [upTo, List.take_take, Nat.min_eq_left h]

theorem Value.property_eq_error {host : Host} {name : String} {v : Value} {receiver : Receiver} :
    v.property host name = .error receiver ↔ v = receiver.value := by
  cases receiver <;> unfold Value.property <;> split <;> simp [Receiver.value]

@[simp] theorem Value.property_receiver (host : Host) (name : String) (receiver : Receiver) :
    receiver.value.property host name = .error receiver :=
  property_eq_error.mpr rfl

namespace Environment

variable {env : Environment} {chain : Access} {v w : Value} {tail : List Accessor}
  {fault : PropertyAccessError}

theorem reads_cons {read : Accessor} {next : Value}
    (hnext : v.property env.host read.key = .ok next) :
    env.reads chain v (read :: tail) = env.reads (chain.push read) next tail := by
  rw [reads, hnext]

-- The read that fails, with the reads before it. By induction on the reads, while the chain that
-- has been read grows.
theorem reads_eq_error : env.reads chain v tail = .error fault ↔
    ∃ i read receiver, tail[i]? = some read ∧
      env.reads chain v (tail.take i) = .ok receiver.value ∧
      fault = ⟨read.key, receiver, (⟨chain.head, chain.tail ++ tail.take i⟩ : Access).path⟩ := by
  induction tail generalizing chain v with
  | nil => simp [reads]
  | cons read rest ih =>
    cases hnext : v.property env.host read.key with
    | error receiver =>
      obtain rfl := Value.property_eq_error.mp hnext
      rw [reads, hnext]
      constructor
      · intro h
        obtain rfl := Except.error.inj h
        exact ⟨0, read, receiver, rfl, rfl, by simp⟩
      · rintro ⟨i, found, other, hfound, hreads, rfl⟩
        cases i with
        | zero =>
          obtain rfl := Option.some.inj hfound
          obtain rfl : receiver = other := by
            cases receiver <;> cases other <;> simp_all [reads, Receiver.value]
          simp
        | succ i => simp [reads, hnext] at hreads
    | ok next =>
      rw [reads_cons hnext, ih]
      constructor
      · rintro ⟨i, found, receiver, hfound, hreads, rfl⟩
        refine ⟨i + 1, found, receiver, hfound, ?_, by simp [Access.push]⟩
        rwa [List.take_succ_cons, reads_cons hnext]
      · rintro ⟨i, found, receiver, hfound, hreads, rfl⟩
        cases i with
        | zero =>
          obtain rfl := Option.some.inj hfound
          obtain rfl := Except.ok.inj hreads
          simp at hnext
        | succ i =>
          rw [List.take_succ_cons, reads_cons hnext] at hreads
          exact ⟨i, found, receiver, hfound, hreads, by simp [Access.push]⟩

-- In a chain that has been read to its end each read leads from the value before it to the next one
theorem reads_at (h : env.reads chain v tail = .ok w) {i : Nat} {read : Accessor}
    (hread : tail[i]? = some read) :
    ∃ u next, env.reads chain v (tail.take i) = .ok u ∧ u.property env.host read.key = .ok next ∧
      env.reads chain v (tail.take (i + 1)) = .ok next := by
  induction tail generalizing chain v i with
  | nil => simp at hread
  | cons first rest ih =>
    cases hnext : v.property env.host first.key with
    | error receiver => simp [reads, hnext] at h
    | ok next =>
      rw [reads_cons hnext] at h
      cases i with
      | zero =>
        obtain rfl := Option.some.inj hread
        exact ⟨v, next, rfl, hnext, by simp [reads, hnext]⟩
      | succ i =>
        obtain ⟨u, after, hbefore, hproperty, hafter⟩ := ih h hread
        refine ⟨u, after, ?_, hproperty, ?_⟩
        · rwa [List.take_succ_cons, reads_cons hnext]
        · rwa [List.take_succ_cons, reads_cons hnext]

theorem reach_eq_ok : (env.reach chain).result = .ok w ↔
    ∃ v, (env.head chain.head).result = .ok v ∧
      env.reads ⟨chain.head, []⟩ v chain.tail = .ok w := by
  rw [reach, Traced.result_andThen_eq_ok]
  exact exists_congr fun v => and_congr_right fun _ => Traced.mapError_eq_ok

theorem access_eq_propertyAccess : (env.access chain).result = .error (.propertyAccess fault) ↔
    ∃ v, (env.head chain.head).result = .ok v ∧
      env.reads ⟨chain.head, []⟩ v chain.tail = .error fault := by
  rw [access, Traced.result_andThen_eq_error, reach, Traced.result_andThen_eq_error]
  constructor
  · rintro ((h | ⟨v, hhead, h⟩) | ⟨v, -, h⟩)
    · obtain ⟨_, _, _, _, -, -, -, hcause⟩ := head_eq_error.mp h
      simp at hcause
    · obtain ⟨cause, hreads, hcause⟩ := Traced.mapError_eq_error.mp h
      obtain rfl := EvalError.propertyAccess.inj hcause
      exact ⟨v, hhead, hreads⟩
    · obtain ⟨cause, -, hcause⟩ := Traced.mapError_eq_error.mp h
      simp at hcause
  · rintro ⟨v, hhead, hreads⟩
    exact .inl (.inr ⟨v, hhead, Traced.mapError_eq_error.mpr ⟨fault, hreads, rfl⟩⟩)

theorem access_eq_host {cause : HostError} : (env.access chain).result = .error (.host cause) ↔
    (env.head chain.head).result = .error (.host cause) := by
  rw [access, Traced.result_andThen_eq_error, reach, Traced.result_andThen_eq_error]
  constructor
  · rintro ((h | ⟨v, -, h⟩) | ⟨v, -, h⟩)
    · exact h
    · obtain ⟨_, -, hcause⟩ := Traced.mapError_eq_error.mp h
      simp at hcause
    · obtain ⟨_, -, hcause⟩ := Traced.mapError_eq_error.mp h
      simp at hcause
  · exact fun h => .inl (.inl h)

-- What has no properties is data, so the gate lets it pass
theorem access_eq_receiver {receiver : Receiver} :
    (env.access chain).result = .ok receiver.value ↔
      (env.reach chain).result = .ok receiver.value := by
  rw [access_eq_ok]
  refine and_iff_left fun lent hlent => ?_
  cases receiver <;> simp [Receiver.value] at hlent

-- A chain that has a value has read through nothing that has no properties
theorem ne_receiver_of_access (h : (env.access chain).result = .ok w) {i : Nat}
    (hi : i < chain.tail.length) (receiver : Receiver) :
    (env.access (chain.upTo i)).result ≠ .ok receiver.value := by
  intro hreceiver
  obtain ⟨v, hhead, hreads⟩ := reach_eq_ok.mp (access_eq_ok.mp h).1
  obtain ⟨v', hhead', hbefore'⟩ := reach_eq_ok.mp (access_eq_receiver.mp hreceiver)
  obtain rfl := Except.ok.inj (hhead.symm.trans hhead')
  obtain ⟨u, next, hbefore, hnext, -⟩ := reads_at hreads (List.getElem?_eq_getElem hi)
  obtain rfl := Except.ok.inj (hbefore.symm.trans hbefore')
  simp at hnext

-- A read fails exactly on a value that has no properties, and that value is what the chain up to
-- the read evaluates to when it stands alone. The error names that read.
theorem access_fails_at_read (env : Environment) (chain : Access) :
    (∀ fault, (env.access chain).result = .error (.propertyAccess fault) ↔
      ∃ i read, chain.tail[i]? = some read ∧
        (env.access (chain.upTo i)).result = .ok fault.receiver.value ∧
        fault.property = read.key ∧ fault.path = (chain.upTo i).path) ∧
    (∀ i j receiver receiver', i < chain.tail.length → j < chain.tail.length →
      (env.access (chain.upTo i)).result = .ok (Receiver.value receiver) →
      (env.access (chain.upTo j)).result = .ok (Receiver.value receiver') → i = j) ∧
    (∀ v, (env.access chain).result = .ok v → ∀ i < chain.tail.length, ∀ receiver,
      (env.access (chain.upTo i)).result ≠ .ok (Receiver.value receiver)) ∧
    (∀ cause, (env.access chain).result = .error (.host cause) ↔
      ∃ target argument function, chain.head = .call target argument ∧
        env.scopes.functions target = some function ∧
        env.host.call function argument = .error cause) ∧
    (∀ violation, (env.access chain).result = .error (.security violation) →
      ∀ i read, chain.tail[i]? = some read → ∃ v next,
        (env.reach (chain.upTo i)).result = .ok v ∧ v.property env.host read.key = .ok next ∧
        (env.reach (chain.upTo (i + 1))).result = .ok next) := by
  refine ⟨fun fault => ?_, fun i j receiver receiver' hi hj hreceiver hreceiver' => ?_,
    fun v h i hi => ne_receiver_of_access h hi, fun cause => ?_, fun violation h i read hread => ?_⟩
  · rw [access_eq_propertyAccess]
    constructor
    · rintro ⟨v, hhead, h⟩
      obtain ⟨i, read, receiver, hread, hreads, rfl⟩ := reads_eq_error.mp h
      exact ⟨i, read, hread, access_eq_receiver.mpr (reach_eq_ok.mpr ⟨v, hhead, hreads⟩), rfl, rfl⟩
    · rintro ⟨i, read, hread, hreceiver, hproperty, hpath⟩
      obtain ⟨v, hhead, hreads⟩ := reach_eq_ok.mp (access_eq_receiver.mp hreceiver)
      refine ⟨v, hhead, reads_eq_error.mpr ⟨i, read, fault.receiver, hread, hreads, ?_⟩⟩
      rw [← hproperty]
      exact congrArg (PropertyAccessError.mk _ _) hpath
  · -- the longer one of two chains would have read through the value of the shorter one
    obtain hlt | heq | hlt := Nat.lt_trichotomy i j
    · have hread : i < (chain.upTo j).tail.length := by simp [Access.upTo]; omega
      have hne := ne_receiver_of_access hreceiver' hread receiver
      rw [chain.upTo_upTo (Nat.le_of_lt hlt)] at hne
      exact absurd hreceiver hne
    · exact heq
    · have hread : j < (chain.upTo i).tail.length := by simp [Access.upTo]; omega
      have hne := ne_receiver_of_access hreceiver hread receiver'
      rw [chain.upTo_upTo (Nat.le_of_lt hlt)] at hne
      exact absurd hreceiver' hne
  · rw [access_eq_host, head_eq_error]
    constructor
    · rintro ⟨target, argument, function, failure, hhead, hfunction, hcall, hcause⟩
      obtain rfl := EvalError.host.inj hcause
      exact ⟨target, argument, function, hhead, hfunction, hcall⟩
    · rintro ⟨target, argument, function, hhead, hfunction, hcall⟩
      exact ⟨target, argument, function, cause, hhead, hfunction, hcall, rfl⟩
  · obtain ⟨lent, hreach, -, -⟩ := access_eq_security.mp h
    obtain ⟨v, hhead, hreads⟩ := reach_eq_ok.mp hreach
    obtain ⟨u, next, hbefore, hnext, hafter⟩ := reads_at hreads hread
    exact ⟨u, next, reach_eq_ok.mpr ⟨v, hhead, hbefore⟩, hnext, reach_eq_ok.mpr ⟨v, hhead, hafter⟩⟩

-- A property of the object that a function returns is null, and the read behind it fails
theorem access_fails_at_read_null :
    let env : Environment := ⟨⟨fun _ _ => .ok (.object ⟨[("a", .null)]⟩), fun _ _ => none⟩, .empty,
      { functions := fun _ => some 1 }⟩
    let chain : Access := ⟨.call "f" "x", [.name "a", .index (.name "b"), .name "c"]⟩
    chain.tail[1]? = some (.index (.name "b")) ∧
      (env.access (chain.upTo 1)).result = .ok .null ∧
      (env.access chain).result = .error (.propertyAccess ⟨"b", .null, "f('x').a"⟩) := by
  intro env chain
  have hread : chain.tail[1]? = some (.index (.name "b")) := rfl
  have hnull : (env.access (chain.upTo 1)).result = .ok .null := rfl
  have hpath : "f('x').a" = (chain.upTo 1).path := by decide
  exact ⟨hread, hnull,
    ((access_fails_at_read env chain).1 _).mpr ⟨1, _, hread, hnull, rfl, hpath⟩⟩

end Environment

end DeclarativeOptions
