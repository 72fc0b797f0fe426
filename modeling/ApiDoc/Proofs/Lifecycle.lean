import ApiDoc.Proofs.History

/-!
# The life of an index

An index is asked questions and looked at in any order, while what it is built from may be a call
that comes to something else each time it is made (`Provision`). As long as each attempt fails, the
index stays empty and each question makes another; the first that comes to contents settles the
index, and from then on nothing changes it. `Reached` says what an index is after a number of
questions. One act preserves it (`Reached.ask`), so it holds after any acts (`Reached.afterActs`),
and what is answered depends on the provision and on strictness alone (`life`).
-/

namespace ApiDoc

/-! ## Provisions -/

/-- What an index is built from: a source that is at hand, or a call that fetches one. A call may
come to something else each time it is made. -/
inductive Provision where
  | atHand (given : Source) (h : given.isFetched = false)
  | call (fetch : Nat → Source) (h : ∀ n, (fetch n).isFetched = true)

namespace Provision

/-- The source after so many calls. -/
def source : Provision → Nat → Source
  | atHand given _, _ => given
  | call fetch _, n => fetch n

/-- The calls that so many attempts make. -/
def calls : Provision → Nat → Nat
  | atHand _ _, _ => 0
  | call _ _, n => n

variable {p : Provision} {n n' : Nat} {c c' : Contents} {e : Error}

theorem source_calls (p : Provision) (n : Nat) : p.source (p.calls n) = p.source n := by
  cases p <;> rfl

theorem calls_succ (p : Provision) (n : Nat) :
    p.calls n + (if (p.source n).isFetched then 1 else 0) = p.calls (n + 1) := by
  cases p with
  | atHand given h => simp [source, calls, h]
  | call fetch h => simp [source, calls, h]

/-- An attempt fails for a reason that is not the business of an index. -/
def FailsAt (p : Provision) (n : Nat) (e : Error) : Prop := (p.source n).read = .error e

/-- An attempt comes to contents, after all attempts before it have failed. -/
def SettlesAt (p : Provision) (n : Nat) (c : Contents) : Prop :=
  (p.source n).read = .ok c ∧ ∀ k < n, ∃ e, p.FailsAt k e

theorem SettlesAt.not_failsAt (h : p.SettlesAt n c) : ¬ p.FailsAt n e := by
  intro he
  cases h.1.symm.trans he

theorem SettlesAt.unique (h : p.SettlesAt n c) (h' : p.SettlesAt n' c') : n = n' ∧ c = c' := by
  obtain rfl : n = n' := by
    rcases Nat.lt_trichotomy n n' with hlt | heq | hlt
    · obtain ⟨e, he⟩ := h'.2 n hlt
      exact absurd he h.not_failsAt
    · exact heq
    · obtain ⟨e, he⟩ := h.2 n' hlt
      exact absurd he h'.not_failsAt
  exact ⟨rfl, Except.ok.inj (h.1.symm.trans h'.1)⟩

/-- Either all of some attempts fail, or one of them settles. -/
theorem fails_or_settlesAt (p : Provision) (n : Nat) :
    (∀ k < n, ∃ e, p.FailsAt k e) ∨ ∃ k < n, ∃ c, p.SettlesAt k c := by
  induction n with
  | zero => exact .inl fun k hk => absurd hk (Nat.not_lt_zero k)
  | succ n ih =>
    rcases ih with hfails | ⟨k, hk, c, hc⟩
    · cases hread : (p.source n).read with
      | ok c => exact .inr ⟨n, Nat.lt_succ_self n, c, hread, hfails⟩
      | error e =>
        refine .inl fun k hk => ?_
        rcases Nat.lt_succ_iff_lt_or_eq.1 hk with hk | rfl
        · exact hfails k hk
        · exact ⟨e, hread⟩
    · exact .inr ⟨k, Nat.lt_succ_of_lt hk, c, hc⟩

end Provision

/-! ## Contents -/

theorem Entries.nodup_firsts (l : Entries) : ((firsts l).map Prod.fst).Nodup := by
  induction l with
  | nil => exact List.nodup_nil
  | cons e l ih =>
    obtain ⟨key, n⟩ := e
    rw [firsts, List.map_cons, List.nodup_cons]
    refine ⟨fun hmem => ?_, ih.sublist (List.filter_sublist.map _)⟩
    obtain ⟨e, he, hkey⟩ := List.mem_map.1 hmem
    simpa [hkey] using (List.mem_filter.1 he).2

/-- What comes of a source has each key once. -/
theorem Source.nodup_keys {source : Source} {c : Contents} (h : source.read = .ok c) :
    (c.entries.map Prod.fst).Nodup := by
  have hraw : ∀ {source : Source} {c : Contents}, source.readRaw = .ok c →
      (c.entries.map Prod.fst).Nodup := by
    intro source c h
    unfold readRaw at h
    split at h
    case h_1 => cases h; exact List.nodup_nil
    case h_2 =>
      split at h
      · cases h; exact Entries.nodup_firsts _
      · cases h; exact List.nodup_nil
    case h_3 =>
      split at h
      · cases h; exact Entries.nodup_firsts _
      · cases h; exact List.nodup_nil
      · cases h
      · cases h
    case h_4 => cases h; exact Entries.nodup_firsts _
    all_goals cases h
  unfold read at h
  split at h
  · exact hraw h
  · cases h
    exact List.nodup_nil
  · cases h
  · exact hraw h

theorem isSome_lookup_iff {β : Type} {l : List (String × β)} {key : String} :
    (l.lookup key).isSome = true ↔ key ∈ l.map Prod.fst := by
  induction l with
  | nil => simp
  | cons e l ih =>
    rw [List.lookup_cons, List.map_cons, List.mem_cons]
    by_cases hkey : key = e.1
    · simp [hkey]
    · rw [beq_false_of_ne hkey]
      simp [hkey, ih]

namespace Index

/-- The state of an index that holds some contents. -/
def stateOf : Contents → String
  | .ready .. => "ready"
  | .missing _ => "missing"
  | .malformed _ => "failed"

/-- The entries that an index holds. -/
def entries (i : Index) : Entries := (i.contents.map Contents.entries).getD []

variable {i : Index} {c : Contents}

theorem state_of_contents (h : i.contents = some c) : i.state = stateOf c := by
  rw [state, h]
  cases c <;> rfl

theorem entries_of_contents (h : i.contents = some c) : i.entries = c.entries := by
  rw [entries, h]
  rfl

theorem state_of_empty (h : i.contents = none) : i.state = "empty" := by
  rw [state, h]

theorem entries_of_empty (h : i.contents = none) : i.entries = [] := by
  rw [entries, h]
  rfl

theorem settle_of_empty (h : i.contents = none) : i.settle.1 = i.outcome ∧
    i.settle.2.1.contents = i.outcome.toOption ∧
    i.settle.2.1.fetches = i.fetches + if i.source.isFetched then 1 else 0 := by
  cases ho : i.outcome <;> simp [settle, h, ho, Except.toOption]

/-! ## Acts -/

/-- What can be done to an index: a look at its state, or a question. -/
inductive Act where
  | look
  | ask (q : Question)

/-- What an act comes to. -/
def Act.Result : Act → Type
  | look => String
  | ask q => q.Result

/-- The index with its source as it is now. -/
def supplied (i : Index) (source : Source) : Index :=
  { i with source, outcome := source.read, outcome_eq := (ofSource i.unit source).outcome_eq }

/-- Does something to an index, whose source is as the calls so far have left it. -/
def act (strict : Bool) (p : Provision) (i : Index) : (a : Act) → Except Error a.Result × Index
  | .look => (.ok i.state, i)
  | .ask q =>
    let (answer, i, _) := q.put strict (i.supplied (p.source i.fetches))
    (answer, i)

/-- The index once some acts have been done to it, one after the other. -/
def afterActs (strict : Bool) (p : Provision) (i : Index) (acts : List Act) : Index :=
  acts.foldl (fun i a => (i.act strict p a).2) i

/-- The index of a unit before anything is done to it. -/
def unasked (unit : String) (p : Provision) : Index := ofSource unit (p.source 0)

/-- The number of questions among some acts. -/
def questions : List Act → Nat
  | [] => 0
  | .look :: acts => questions acts
  | .ask _ :: acts => questions acts + 1


/-! ## One act -/

/-- What an index is after a number of questions: empty if all attempts failed, and otherwise
settled by the first that did not. -/
inductive Reached (p : Provision) (unit : String) (asked : Nat) (i : Index) : Prop
  | empty : i.unit = unit → i.contents = none → i.fetches = p.calls asked →
    (∀ k < asked, ∃ e, p.FailsAt k e) → Reached p unit asked i
  | settled {n : Nat} {c : Contents} : i.unit = unit → i.contents = some c →
    i.fetches = p.calls (n + 1) → n < asked → p.SettlesAt n c → Reached p unit asked i

variable {p : Provision} {unit : String} {asked n : Nat}

theorem reached_unasked (p : Provision) (unit : String) : Reached p unit 0 (unasked unit p) := by
  refine .empty rfl rfl ?_ fun k hk => absurd hk (Nat.not_lt_zero k)
  cases p <;> rfl

/-- A settled index answers from its contents, whatever its source has become. -/
theorem act_ask_of_contents (strict : Bool) (hc : i.contents = some c) (q : Question) :
    i.act strict p (.ask q) = (q.read strict i.unit c, i.supplied (p.source i.fetches)) := by
  have hsettle : (i.supplied (p.source i.fetches)).settle =
      (.ok c, i.supplied (p.source i.fetches), []) := settle_of_contents hc
  simp only [act, q.put_eq, ask, hsettle]
  rfl

/-- An empty index makes an attempt: it answers from the contents that the attempt comes to, which
settle it, and if the attempt fails it answers with the error and stays empty. -/
theorem act_ask_of_empty (strict : Bool) (hempty : i.contents = none)
    (hfetches : i.fetches = p.calls asked) (q : Question) :
    ∃ i', i'.unit = i.unit ∧ i'.fetches = p.calls (asked + 1) ∧
      i'.contents = (p.source asked).read.toOption ∧
      i.act strict p (.ask q) = ((p.source asked).read.bind (q.read strict i.unit), i') := by
  have hsource : p.source i.fetches = p.source asked := by rw [hfetches, p.source_calls]
  have hcount :
      i.fetches + (if (p.source asked).isFetched then 1 else 0) = p.calls (asked + 1) := by
    rw [hfetches, p.calls_succ]
  obtain ⟨hanswer, hcontents, hfetched⟩ :=
    settle_of_empty (i := i.supplied (p.source asked)) hempty
  refine ⟨(i.supplied (p.source asked)).settle.2.1, unit_settle _, hfetched.trans hcount,
    hcontents, ?_⟩
  simp only [act, hsource, q.put_eq, ask, hanswer]
  rfl

theorem Reached.ask (strict : Bool) (h : Reached p unit asked i) (q : Question) :
    Reached p unit (asked + 1) (i.act strict p (.ask q)).2 := by
  cases h with
  | empty hunit hempty hfetches hfails =>
    obtain ⟨i', hunit', hfetches', hcontents, hact⟩ := act_ask_of_empty strict hempty hfetches q
    rw [hact]
    cases hread : (p.source asked).read with
    | ok c =>
      rw [hread] at hcontents
      exact .settled (hunit'.trans hunit) hcontents hfetches' (Nat.lt_succ_self _) ⟨hread, hfails⟩
    | error e =>
      rw [hread] at hcontents
      refine .empty (hunit'.trans hunit) hcontents hfetches' fun k hk => ?_
      rcases Nat.lt_succ_iff_lt_or_eq.1 hk with hk | rfl
      · exact hfails k hk
      · exact ⟨e, hread⟩
  | settled hunit hc hfetches hn hsettles =>
    rw [act_ask_of_contents strict hc]
    exact .settled hunit hc hfetches (Nat.lt_succ_of_lt hn) hsettles

/-! ## Any acts -/

theorem Reached.afterActs (strict : Bool) (h : Reached p unit asked i) (acts : List Act) :
    Reached p unit (asked + questions acts) (i.afterActs strict p acts) := by
  induction acts generalizing asked i with
  | nil => exact h
  | cons a acts ih =>
    cases a with
    | look => exact ih h
    | ask q =>
      have hrest := ih (h.ask strict q)
      rwa [Nat.add_right_comm] at hrest

theorem reached_afterActs (p : Provision) (unit : String) (strict : Bool) (acts : List Act) :
    Reached p unit (questions acts) ((unasked unit p).afterActs strict p acts) := by
  simpa using (reached_unasked p unit).afterActs strict acts

theorem Reached.contents_eq (h : Reached p unit asked i) (hn : n < asked) (hc : p.SettlesAt n c) :
    i.contents = some c ∧ i.fetches = p.calls (n + 1) := by
  cases h with
  | empty hunit hempty hfetches hfails =>
    obtain ⟨e, he⟩ := hfails n hn
    exact absurd he hc.not_failsAt
  | settled hunit hcontents hfetches hlt hsettles =>
    obtain ⟨rfl, rfl⟩ := hsettles.unique hc
    exact ⟨hcontents, hfetches⟩

theorem Reached.empty_of_fails (h : Reached p unit asked i)
    (hfails : ∀ k < asked, ∃ e, p.FailsAt k e) : i.contents = none ∧ i.fetches = p.calls asked := by
  cases h with
  | empty hunit hempty hfetches hfails => exact ⟨hempty, hfetches⟩
  | settled hunit hcontents hfetches hlt hsettles =>
    obtain ⟨e, he⟩ := hfails _ hlt
    exact absurd he hsettles.not_failsAt

/-- From the question that settles an index on, questions are answered from the contents. -/
theorem Reached.answer_eq (strict : Bool) (h : Reached p unit asked i) (hn : n ≤ asked)
    (hc : p.SettlesAt n c) (q : Question) : (i.act strict p (.ask q)).1 = q.read strict unit c := by
  cases h with
  | empty hunit hempty hfetches hfails =>
    obtain rfl : n = asked := by
      refine Nat.le_antisymm hn (Nat.le_of_not_lt fun hlt => ?_)
      obtain ⟨e, he⟩ := hfails n hlt
      exact absurd he hc.not_failsAt
    obtain ⟨i', -, -, -, hact⟩ := act_ask_of_empty strict hempty hfetches q
    rw [hact, hc.1, hunit]
    rfl
  | settled hunit hcontents hfetches hlt hsettles =>
    obtain ⟨rfl, rfl⟩ := hsettles.unique hc
    rw [act_ask_of_contents strict hcontents, hunit]

/-! ## Answers -/

/-- The answers to all questions tell the same of the contents of the index of a unit. -/
structure Tells (strict : Bool) (unit : String) (c : Contents)
    (answer : (q : Question) → Except Error q.Result) : Prop where
  find_of_get : ∀ key found, answer (.get key) = .ok found → answer (.find key) = .ok found
  contains : ∀ key, ∃ found : Option Xml.Node,
    answer (.find key) = .ok found ∧ answer (.contains key) = .ok found.isSome
  keys : ∀ keys : List String, answer .keys = .ok keys → keys.Nodup ∧
    (∀ key, key ∈ keys ↔ answer (.contains key) = .ok true) ∧ answer .size = .ok keys.length
  isIndexed : answer .isIndexed = .ok (decide (stateOf c = "ready"))
  /-- Only what must not be answered from a malformed source fails, and then it does. -/
  fails : ∀ q e, answer q = .error e ↔ q.isStrict = true ∧ strict = true ∧
    ∃ reason, c = .malformed reason ∧ e = .sourceMalformed unit reason

/-- What is demanded of contents is had, unless they are malformed and strictness is set. -/
theorem demand_eq (strict : Bool) (unit : String) (c : Contents) :
    (demand strict unit c = .ok c ∧ ¬ (strict = true ∧ ∃ reason, c = .malformed reason)) ∨
      strict = true ∧ ∃ reason, c = .malformed reason ∧
        demand strict unit c = .error (.sourceMalformed unit reason) := by
  cases c with
  | malformed reason =>
    cases strict with
    | false => exact .inl ⟨rfl, by simp⟩
    | true => exact .inr ⟨rfl, reason, rfl, rfl⟩
  | ready | missing => exact .inl ⟨rfl, by simp⟩

theorem tells_read (hkeys : (c.entries.map Prod.fst).Nodup) (strict : Bool) (unit : String) :
    Tells strict unit c fun q => q.read strict unit c where
  find_of_get key found h := by
    rcases demand_eq strict unit c with ⟨hd, -⟩ | ⟨-, reason, -, hd⟩
    · simp only [Question.read, hd] at h ⊢
      exact h
    · simp only [Question.read, hd] at h
      cases h
  contains key := ⟨c.find? key, rfl, rfl⟩
  keys keys h := by
    rcases demand_eq strict unit c with ⟨hd, -⟩ | ⟨-, reason, -, hd⟩
    · simp only [Question.read, hd] at h ⊢
      cases h
      refine ⟨hkeys, fun key => ?_, by simp [Except.map]⟩
      rw [← isSome_lookup_iff]
      exact ⟨fun hk => congrArg _ hk, fun hk => Except.ok.inj hk⟩
    · simp only [Question.read, hd] at h
      cases h
  isIndexed := by cases c <;> rfl
  fails q e := by
    rcases demand_eq strict unit c with ⟨hd, hfine⟩ | ⟨hstrict, reason, hc, hd⟩
    · have hanswered : q.read strict unit c ≠ .error e := by
        cases q <;> simp [Question.read, hd, Except.map]
      exact ⟨fun h => absurd h hanswered,
        fun ⟨_, hstrict, reason, hc, _⟩ => absurd ⟨hstrict, reason, hc⟩ hfine⟩
    · have hfails : q.read strict unit c = .error e ↔
          q.isStrict = true ∧ e = .sourceMalformed unit reason := by
        cases q <;> simp [Question.read, Question.isStrict, hd, Except.map, eq_comm]
      simpa [hstrict, hc] using hfails

/-! ## The whole life -/

/-- The life of an index. It begins empty, and a look at it leaves it as it is. After any acts, if
all attempts so far failed, then it is empty, it has made each of these calls, and if the next
attempt fails too then so does the next question; otherwise one attempt settled it, it is in the
state and has the entries that its source had then, and no call was made after that. From the
question that settles it on, what it answers depends on the contents and on strictness alone. -/
theorem life (strict : Bool) (p : Provision) (unit : String) :
    (unasked unit p).state = "empty" ∧ (∀ i : Index, i.act strict p .look = (.ok i.state, i)) ∧
    ∀ acts : List Act, let i := (unasked unit p).afterActs strict p acts
      (((∀ k < questions acts, ∃ e, p.FailsAt k e) ∧ i.state = "empty" ∧ i.entries = [] ∧
          i.fetches = p.calls (questions acts) ∧
          ∀ e, p.FailsAt (questions acts) e → ∀ q, (i.act strict p (.ask q)).1 = .error e) ∨
        ∃ n < questions acts, ∃ c, p.SettlesAt n c ∧ i.state = stateOf c ∧ i.entries = c.entries ∧
          i.fetches = p.calls (n + 1)) ∧
      ∀ n ≤ questions acts, ∀ c, p.SettlesAt n c →
        (∀ q, (i.act strict p (.ask q)).1 = q.read strict unit c) ∧
        Tells strict unit c fun q => (i.act strict p (.ask q)).1 := by
  refine ⟨rfl, fun i => rfl, fun acts => ?_⟩
  have hreached := reached_afterActs p unit strict acts
  refine ⟨?_, fun n hn c hc => ?_⟩
  · rcases p.fails_or_settlesAt (questions acts) with hfails | ⟨n, hn, c, hc⟩
    · obtain ⟨hempty, hfetches⟩ := hreached.empty_of_fails hfails
      refine .inl ⟨hfails, state_of_empty hempty, entries_of_empty hempty, hfetches,
        fun e he q => ?_⟩
      obtain ⟨i', -, -, -, hact⟩ := act_ask_of_empty strict hempty hfetches q
      rw [hact, he]
      rfl
    · obtain ⟨hcontents, hfetches⟩ := hreached.contents_eq hn hc
      exact .inr ⟨n, hn, c, hc, state_of_contents hcontents, entries_of_contents hcontents,
        hfetches⟩
  · have hanswer : ∀ q, _ := hreached.answer_eq strict hn hc
    refine ⟨hanswer, ?_⟩
    simp only [hanswer]
    exact tells_read (Source.nodup_keys hc.1) strict unit

/-- A call that fails once, and then comes to a tree with one entry. -/
def lateCall : Provision :=
  .call (fun n => if n = 0 then .failing else .fetched (.element lateRoot))
    fun n => by split <;> rfl
where
  lateRoot : Xml.Node := .element (.plain "doc") [] [.element (.plain "members") []
    [.element (.plain "member") [(.plain "name", "T:Zoo.Dog")] []]]

theorem lateCall_settlesAt : lateCall.SettlesAt 1 (.ofRoot lateCall.lateRoot) := by
  refine ⟨rfl, fun k hk => ⟨.sourceFailed, ?_⟩⟩
  obtain rfl : k = 0 := Nat.lt_one_iff.1 hk
  rfl

/-- The second question settles the index, and the third one makes no call. -/
theorem life_lateCall :
    let i := (unasked "Zoo" lateCall).afterActs true lateCall [.ask .keys, .look, .ask .size]
    lateCall.SettlesAt 1 (.ofRoot lateCall.lateRoot) ∧ i.state = "ready" ∧ i.fetches = 2 ∧
      (i.act true lateCall (.ask .keys)).1 = .ok ["T:Zoo.Dog"] ∧
      Tells true "Zoo" (.ofRoot lateCall.lateRoot) fun q => (i.act true lateCall (.ask q)).1 := by
  obtain ⟨-, -, h⟩ := life true lateCall "Zoo"
  obtain ⟨hstate, hanswers⟩ := h [.ask .keys, .look, .ask .size]
  obtain ⟨hkeys, htells⟩ := hanswers 1 (by decide) _ lateCall_settlesAt
  refine ⟨lateCall_settlesAt, ?_, ?_, ?_, htells⟩
  · rfl
  · rfl
  · exact (hkeys .keys).trans rfl

end Index

end ApiDoc
