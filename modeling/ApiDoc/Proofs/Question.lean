import ApiDoc.Session
import ApiDoc.Proofs.PageAgreement

/-!
# Questions

All that can be asked of a session about the documentation of its catalog. Questions are put to the
index of a unit (`Index.Question`), to a context (`Context.Question`), or by the name of a unit to
the session, which takes down the framework of a unit whose pages it writes (`Session.perform`). A
question spares a condition on units if what it asks strictly is asked of units that meet it only:
then contexts that agree answer it alike (`Context.Agrees.answer`).
-/

namespace ApiDoc

open Document (Fragment Page)

/-! ## Indices -/

/-- What the index of a unit can be asked. -/
inductive Index.Question where
  | get (key : String)
  | find (key : String)
  | keys
  | contains (key : String)
  | size
  | isIndexed

namespace Index.Question

/-- What a question comes to. -/
def Result : Index.Question → Type
  | get _ | find _ => Option Xml.Node
  | keys => List String
  | contains _ | isIndexed => Bool
  | size => Nat

/-- Puts a question to an index. -/
def put (strict : Bool) :
    (q : Index.Question) → Index → Except Error q.Result × Index × List Log.Record
  | .get key => fun i => i.get strict key
  | .find key => fun i => i.find key
  | .keys => fun i => i.keys strict
  | .contains key => fun i => i.contains key
  | .size => fun i => i.size strict
  | .isIndexed => fun i => i.isIndexed

/-- What the contents of the index of a unit answer. -/
def read (strict : Bool) (unit : String) : (q : Index.Question) → Contents → Except Error q.Result
  | .get key => fun c => (demand strict unit c).map (·.find? key)
  | .find key => fun c => .ok (c.find? key)
  | .keys => fun c => (demand strict unit c).map (·.entries.map Prod.fst)
  | .contains key => fun c => .ok (c.find? key).isSome
  | .size => fun c => (demand strict unit c).map (·.entries.length)
  | .isIndexed => fun c => .ok c.isReady

theorem put_eq (q : Index.Question) (strict : Bool) (i : Index) :
    q.put strict i = i.ask (q.read strict i.unit) := by
  cases q <;> rfl

/-- The questions that a malformed source must not answer. -/
def isStrict : Index.Question → Bool
  | get _ | keys | size => true
  | find _ | contains _ | isIndexed => false

/-- Contents that agree answer alike, if they are the same where a strict question is asked. -/
theorem read_eq {q : Index.Question} {strict : Bool} {same : Prop} {c c' : Contents}
    (hc : c.Agree same c') (hsame : q.isStrict = true → strict = true → same) (unit : String) :
    q.read strict unit c = q.read strict unit c' := by
  have hdemand : q.isStrict = true →
      Results (Contents.Agree same) (demand strict unit c) (demand strict unit c') :=
    fun hq => hc.demand (hsame hq) unit
  have hmap : ∀ {α : Type} {r r' : Except Error Contents} (f : Contents → α),
      (∀ c c' : Contents, c.Agree same c' → f c = f c') → Results (Contents.Agree same) r r' →
      r.map f = r'.map f := by
    intro α r r' f hf hr
    cases hr with
    | ok hc => exact congrArg Except.ok (hf _ _ hc)
    | error e => rfl
  cases q with
  | get key => exact hmap _ (fun _ _ h => h.find?_eq key) (hdemand rfl)
  | find key => exact congrArg Except.ok (hc.find?_eq key)
  | keys => exact hmap _ (fun _ _ h => by rw [h.entries_eq]) (hdemand rfl)
  | contains key => exact congrArg (fun n => Except.ok (Option.isSome n)) (hc.find?_eq key)
  | size => exact hmap _ (fun _ _ h => by rw [h.entries_eq]) (hdemand rfl)
  | isIndexed => exact congrArg Except.ok hc.isReady_eq

end Index.Question

/-! ## Contexts -/

/-- What a context can be asked. -/
inductive Context.Question where
  | entry (s : Symbol)
  | foreignEntry (s : Symbol)
  | entryByKey (key : String)
  | isIndexed (unit : Option String)
  | resolve (s : Symbol)
  | summary (s : Symbol) (budget : Option Int)
  | renderSection (s : Symbol) (tag : String) (mode : Markup.Mode)
  | dispatch (ref : TypeRef)
  | interfaceMethods (m : MemberSymbol)
  | typePage (t : TypeSymbol)
  | memberPage (symbols : List Symbol)

namespace Context.Question

/-- What a question comes to. -/
def Result : Context.Question → Type
  | entry _ | foreignEntry _ | entryByKey _ | resolve _ => Option Xml.Node
  | isIndexed _ => Bool
  | summary _ _ => String
  | renderSection _ _ _ => Fragment
  | dispatch _ => DispatchTable
  | interfaceMethods _ => List MethodSymbol
  | typePage _ | memberPage _ => Page

/-- The units of the symbols whose own entries are asked for meet a condition. -/
def Spares (spared : Option String → Prop) : Context.Question → Prop
  | entry s | resolve s | summary s _ | renderSection s _ _ => spared s.unit
  | typePage t => spared t.unit
  | memberPage symbols => ∀ s ∈ symbols, spared s.unit
  | foreignEntry _ | entryByKey _ | isIndexed _ | dispatch _ | interfaceMethods _ => True

theorem spares_of_forall {spared : Option String → Prop} (h : ∀ unit, spared unit)
    (q : Context.Question) : q.Spares spared := by
  cases q <;> simp [Spares, h]

end Context.Question

namespace Context

def answer (ctx : Context) : (q : Context.Question) → Answer q.Result
  | .entry s => ctx.entry s
  | .foreignEntry s => ctx.foreignEntry s
  | .entryByKey key => ctx.entryByKey key
  | .isIndexed unit => ctx.isIndexed unit
  | .resolve s => ctx.resolve s
  | .summary s budget => ctx.summary s budget
  | .renderSection s tag mode => ctx.renderSection s tag mode
  | .dispatch ref => ctx.dispatch ref
  | .interfaceMethods m => ctx.interfaceMethods m
  | .typePage t => ctx.typePage t
  | .memberPage symbols => ctx.memberPage symbols

/-- Contexts that agree answer alike what spares the units where they may differ. -/
theorem Agrees.answer {sound : JournalEntry → Prop} {spared : Option String → Prop}
    {ctx ctx' : Context} (h : Agrees sound spared ctx ctx') (q : Context.Question)
    (hq : q.Spares spared) : Answer.Same sound (ctx.answer q) (ctx'.answer q) := by
  have hc := h.corresponds
  have hframework := fun unit => (h.framework unit).symm
  cases q with
  | entry s =>
    change Answer.Same sound (ctx.entry s) (ctx'.entry s)
    simpa using hc.entry hq
  | foreignEntry s =>
    change Answer.Same sound (ctx.foreignEntry s) (ctx'.foreignEntry s)
    simpa using hc.foreignEntry s
  | entryByKey key => exact h.entryByKey key
  | isIndexed unit => exact hc.isIndexed unit
  | resolve s =>
    change Answer.Same sound (ctx.resolve s) (ctx'.resolve s)
    simpa using hc.resolve hq
  | summary s budget =>
    change Answer.Same sound (ctx.summary s budget) (ctx'.summary s budget)
    simpa using hc.summary hq budget
  | renderSection s tag mode =>
    change Answer.Same sound (ctx.renderSection s tag mode) (ctx'.renderSection s tag mode)
    simpa using hc.renderSection hq tag mode
  | dispatch ref => exact h.dispatch ref
  | interfaceMethods m =>
    change Answer.Same sound (ctx.interfaceMethods m) (ctx'.interfaceMethods m)
    refine Answer.parallel_flip_eq_iff.1 ?_
    simpa using hc.interfaceMethods m
  | typePage t =>
    change Answer.Same sound (ctx.typePage t) (ctx'.typePage t)
    simpa using hc.typePage hframework hq
  | memberPage symbols =>
    change Answer.Same sound (ctx.memberPage symbols) (ctx'.memberPage symbols)
    simpa using hc.memberPage hframework hq

end Context

/-! ## Sessions -/

/-- What a session can be asked about the documentation of its catalog. -/
inductive Question where
  | context (q : Context.Question)
  /-- A question to the index of a unit itself. -/
  | index (unit : String) (q : Index.Question)
  /-- The contents page of the unit of a name. -/
  | unitPage (name : String)
  /-- All pages of the unit of a name. -/
  | unitPages (name : String)

namespace Question

/-- What a question comes to. -/
def Result : Question → Type
  | context q => q.Result
  | index _ q => Option q.Result
  | unitPage _ => Page
  | unitPages _ => List (String × Page)

/-- The units that are asked strictly meet a condition. -/
def Spares (spared : Option String → Prop) : Question → Prop
  | context q => q.Spares spared
  | index unit q => q.isStrict = true → spared (some unit)
  | unitPage name | unitPages name => spared (some name)

theorem spares_of_forall {spared : Option String → Prop} (h : ∀ unit, spared unit)
    (q : Question) : q.Spares spared := by
  cases q with
  | context q => exact q.spares_of_forall h
  | index unit q => exact fun _ => h _
  | unitPage name => exact h _
  | unitPages name => exact h _

theorem spares_imp {p : Prop} {spared : Option String → Prop} {q : Question}
    (h : p → q.Spares spared) : q.Spares fun unit => p → spared unit := by
  by_cases hp : p
  · simpa only [hp, true_imp_iff] using h hp
  · exact q.spares_of_forall fun _ hp' => absurd hp' hp

end Question

namespace Session

/-- The reply to a question that is about a unit of the catalog. -/
def onUnit {α : Type} (s : Session) (name : String) (reply : UnitSymbol → Reply α) : Reply α :=
  match s.catalog.unit? name with
  | some u => reply u
  | none => { result := .error .notApplicable, session := s }

def perform (s : Session) : (q : Question) → Reply q.Result
  | .context q => s.ask (·.answer q)
  | .index unit q => s.askIndex unit (q.put s.settings.documentation.failOnMalformed)
  | .unitPage name => s.onUnit name s.unitPage
  | .unitPages name => s.onUnit name s.unitPages

/-- The session once a list of questions has been asked, one after the other. -/
def after (s : Session) (history : List Question) : Session :=
  history.foldl (fun s q => (s.perform q).session) s

@[simp] theorem after_nil (s : Session) : s.after [] = s := rfl

@[simp] theorem after_cons (s : Session) (q : Question) (history : List Question) :
    s.after (q :: history) = (s.perform q).session.after history := rfl

theorem after_append (s : Session) (history later : List Question) :
    s.after (history ++ later) = (s.after history).after later := by
  rw [after, after, after, List.foldl_append]

end Session

end ApiDoc
