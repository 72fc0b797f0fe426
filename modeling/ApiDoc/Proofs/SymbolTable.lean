import Mathlib
import ApiDoc.Proofs.WellBuilt

/-!
# The symbol table

The table of symbols inverts the two forms of their keys: looking up a key finds the first symbol in
load order that has it (`findSymbol_eq_find?`). So a symbol whose keys are no earlier symbol's is found by
both of them, and a reference that cites either is shown as that symbol
(`findSymbol_of_build`).
-/

namespace ApiDoc

/-! ## The keys of a symbol -/

/-- The key is the identifier of the symbol, or the one that sources list it by. The two differ for
events alone. -/
def Symbol.HasKey (s : Symbol) (key : String) : Prop :=
  s.identifier = .ok key ∨ s.documentationKey = .ok key

instance (s : Symbol) (key : String) : Decidable (s.HasKey key) :=
  decidable_of_iff (s.identifier.toOption = some key ∨ s.documentationKey.toOption = some key) <| by
    unfold Symbol.HasKey
    cases s.identifier <;> cases s.documentationKey <;> simp [Except.toOption]

namespace Hierarchy

variable {c : Catalog} {h : Hierarchy} {s : Symbol}

/-- The entries of a symbol in the table are its keys, each with its address. -/
theorem mem_of_keysOf {entries : List (String × Address)} (h : keysOf s = .ok entries)
    (e : String × Address) : e ∈ entries ↔ s.HasKey e.1 ∧ e.2 = s.address := by
  obtain ⟨key, a⟩ := e
  obtain ⟨id, hid, h⟩ := bind_eq_ok.1 h
  have hother : s.documentationKey = s.identifier → entries = [(id, s.address)] →
      ((key, a) ∈ entries ↔ s.HasKey key ∧ a = s.address) := by
    rintro hkey rfl
    simp [Symbol.HasKey, hkey, hid, eq_comm]
  cases s with
  | type t => exact hother rfl (Except.ok.inj h).symm
  | parameter p => exact hother rfl (Except.ok.inj h).symm
  | member m =>
    obtain ⟨address, owner, decl⟩ := m
    cases decl with
    | event e =>
      obtain ⟨key', hkey', h⟩ := bind_eq_ok.1 h
      cases h
      simp only [List.mem_cons, Prod.mk.injEq, List.not_mem_nil, or_false, Symbol.HasKey, hid,
        hkey', Except.ok.injEq]
      grind
    | _ => exact hother rfl (Except.ok.inj h).symm

/-- A symbol with entries in the table has both of its keys. -/
theorem exists_keys_of_keysOf {entries : List (String × Address)} (h : keysOf s = .ok entries) :
    ∃ id key, s.identifier = .ok id ∧ s.documentationKey = .ok key := by
  obtain ⟨id, hid, h⟩ := bind_eq_ok.1 h
  refine ⟨id, ?_⟩
  cases s with
  | type t => exact ⟨id, hid, hid⟩
  | parameter p => cases hid
  | member m =>
    obtain ⟨address, owner, decl⟩ := m
    cases decl with
    | event e =>
      obtain ⟨key, hkey, -⟩ := bind_eq_ok.1 h
      exact ⟨key, hid, hkey⟩
    | _ => exact ⟨id, hid, hid⟩

/-- The first symbol with a key comes with the first entry of the key in the tables of all. -/
theorem lookup_flatten {symbols : List Symbol} {tables : List (List (String × Address))}
    (h : List.Forall₂ (fun s entries => keysOf s = .ok entries) symbols tables) (key : String) :
    tables.flatten.lookup key =
      (symbols.find? fun s => decide (s.HasKey key)).map Symbol.address := by
  induction h with
  | nil => rfl
  | @cons s entries symbols tables hs _ ih =>
    rw [List.flatten_cons, List.lookup_append, ih, List.find?_cons]
    by_cases hkey : s.HasKey key
    · have hmem := (mem_of_keysOf hs (key, s.address)).2 ⟨hkey, rfl⟩
      cases hl : entries.lookup key with
      | none => simpa using List.lookup_eq_none_iff.1 hl _ hmem
      | some a =>
        obtain ⟨-, rfl⟩ := (mem_of_keysOf hs _).1 (mem_of_lookup hl)
        simp [hkey]
    · have hnone : entries.lookup key = none := by
        refine List.lookup_eq_none_iff.2 fun e he => ?_
        have hhas := ((mem_of_keysOf hs e).1 he).1
        exact bne_iff_ne.2 fun heq => hkey (heq ▸ hhas)
      simp [hkey, hnone]

theorem exists_keys (hb : build c = .ok h) (hs : c.Declares s) :
    ∃ id key, s.identifier = .ok id ∧ s.documentationKey = .ok key := by
  obtain ⟨tables, htables, -⟩ := bind_eq_ok.1 hb
  obtain ⟨entries, he⟩ := exists_of_mapM htables (List.mem_flatMap.2 hs)
  exact exists_keys_of_keysOf he

/-- The table finds the address of the first symbol with a key. -/
theorem lookup_symbols (hb : build c = .ok h) (key : String) :
    h.symbols.lookup key =
      (c.symbols.find? fun s => decide (s.HasKey key)).map Symbol.address := by
  obtain ⟨tables, htables, hb⟩ := bind_eq_ok.1 hb
  obtain ⟨roots, -, hb⟩ := bind_eq_ok.1 hb
  cases hb
  rw [Catalog.symbols_eq]
  exact lookup_flatten (mapM_eq_ok.1 htables) key

end Hierarchy

namespace Context

variable {ctx : Context} {s : Symbol}

/-- The symbol found for a key is the first one in load order that has it. -/
theorem findSymbol_eq_find? (hb : Hierarchy.build ctx.catalog = .ok ctx.hierarchy) (key : String) :
    ctx.findSymbol key = ctx.catalog.symbols.find? fun s => decide (s.HasKey key) := by
  rw [findSymbol, Hierarchy.lookup_symbols hb]
  cases hfind : ctx.catalog.symbols.find? fun s => decide (s.HasKey key) with
  | none => rfl
  | some s => exact (Catalog.mem_symbols.1 (List.mem_of_find?_eq_some hfind)).symbol?

theorem declares_of_findSymbol (hctx : ctx.WellBuilt) {key : String}
    (h : ctx.findSymbol key = some s) : ctx.catalog.Declares s := by
  rw [findSymbol_eq_find? hctx.hierarchy] at h
  exact Catalog.mem_symbols.1 (List.mem_of_find?_eq_some h)

end Context

/-! ## References -/

namespace Markup

/-- An element that names no keyword and no outside page, only the key of a symbol. -/
structure RefersBy (key : String) (e : Xml.Node) : Prop where
  langword : (e.attribute? "langword").getD "" = ""
  href : (e.attribute? "href").getD "" = ""
  cref : (e.attribute? "cref").getD "" = key

end Markup

/-- What starts with another letter is not marked as an identifier that was not resolved. -/
theorem Markup.not_marked_of_letter {c : Char} (hc : c ≠ '!') (rest : String) :
    (String.ofList [c, ':'] ++ rest).startsWith unresolvedMark = false := by
  refine String.startsWith_string_eq_false_iff.2 fun hprefix => hc ?_
  rw [String.toList_append, String.toList_ofList] at hprefix
  exact (List.cons_prefix_cons.1 hprefix).1.symm

namespace MemberSymbol

variable {m : MemberSymbol} {key : String}

theorem exists_of_plainIdentifier {letter : String} (h : m.plainIdentifier letter = .ok key) :
    ∃ rest, key = letter ++ rest := by
  obtain ⟨owner, -, h⟩ := bind_eq_ok.1 h
  cases h
  exact ⟨owner ++ "." ++ m.decl.name, by simp only [String.append_assoc]⟩

theorem exists_of_callableIdentifier {name : String} {parameters : List Parameter}
    (h : m.callableIdentifier name parameters = .ok key) : ∃ rest, key = "M:" ++ rest := by
  obtain ⟨owner, -, h⟩ := bind_eq_ok.1 h
  obtain ⟨list, -, h⟩ := bind_eq_ok.1 h
  cases h
  exact ⟨owner ++ "." ++ name ++ list, by simp only [String.append_assoc]⟩

end MemberSymbol

/-- The key that sources list a symbol by starts with the letter of its kind. -/
theorem Symbol.not_marked_of_documentationKey {s : Symbol} {key : String}
    (h : s.documentationKey = .ok key) : key.startsWith Markup.unresolvedMark = false := by
  have hletter : ∀ c : Char, c ≠ '!' → (∃ rest, key = String.ofList [c, ':'] ++ rest) →
      key.startsWith Markup.unresolvedMark = false := by
    rintro c hc ⟨rest, rfl⟩
    exact Markup.not_marked_of_letter hc rest
  cases s with
  | parameter p => cases h
  | type t =>
    obtain ⟨name, -, h⟩ := bind_eq_ok.1 h
    cases h
    exact hletter 'T' (by decide) ⟨name, rfl⟩
  | member m =>
    obtain ⟨address, owner, decl⟩ := m
    cases decl with
    | method d => exact hletter 'M' (by decide) (MemberSymbol.exists_of_callableIdentifier h)
    | constructor c => exact hletter 'M' (by decide) (MemberSymbol.exists_of_callableIdentifier h)
    | field f => exact hletter 'F' (by decide) (MemberSymbol.exists_of_plainIdentifier h)
    | property p => exact hletter 'P' (by decide) (MemberSymbol.exists_of_plainIdentifier h)
    | event e =>
      obtain ⟨id, -, h⟩ := bind_eq_ok.1 h
      cases h
      exact hletter 'E' (by decide) ⟨id, rfl⟩
    | unclassified d => cases h
    | unclassifiedCallable c => cases h

namespace Renderer

open Markup

variable {r : Renderer} {key : String} {e : Xml.Node} {s : Symbol}

theorem see_of_refersBy (h : RefersBy key e) (mode : Mode) :
    r.see mode e = r.reference mode key (Text.flat e.innerText) := by
  simp [see, h.langword, h.href, h.cref]

/-- How a reference to a symbol is shown: by the words of the reference or the name of the symbol,
as a link to its path if its unit is indexed and more than texts are wanted. -/
def shown (r : Renderer) (mode : Mode) (s : Symbol) (words : String) : Answer Document.Node := do
  let name := orElse words (r.referenceName s)
  if mode = .plain then pure (.text name)
  else if ← r.isIndexed s.unit then
    let path ← Answer.ofExcept (r.paths s)
    Answer.link name path
  else pure (.code name)

/-- The unit that a reference asks for is that of its symbol, which is no parameter. -/
theorem referenceUnit_eq {s : Symbol} (hs : r.catalog.Declares s) : referenceUnit s = s.unit := by
  cases s with
  | type | member => rfl
  | parameter p =>
    obtain ⟨t, -, hs⟩ := hs
    simp [TypeSymbol.symbols] at hs

/-- A reference by a key is shown as the symbol that is found for it. -/
theorem reference_eq_shown (hs : r.catalog.Declares s) (hfind : r.findSymbol key = some s)
    (hmark : key.startsWith unresolvedMark = false) (mode : Mode) (words : String) :
    r.reference mode key words = r.shown mode s words := by
  simp [reference, shown, hmark, hfind, referenceUnit_eq hs]

end Renderer

namespace Context

open Markup

variable {ctx : Context}

/-- A key finds the first symbol in load order that has it as its identifier or documentation key,
and nothing if there is none. So a symbol is found by both of its keys if no earlier symbol has one
of them, and a reference that cites either is shown as the symbol. (The identifier of an event has no
letter, and a reference by it could be taken for one that was not resolved.) -/
theorem findSymbol_of_build (hb : Hierarchy.build ctx.catalog = .ok ctx.hierarchy) :
    (∀ key s, ctx.findSymbol key = some s ↔ s.HasKey key ∧
      ∃ before after, ctx.catalog.symbols = before ++ s :: after ∧
        ∀ s' ∈ before, ¬ s'.HasKey key) ∧
    (∀ key, ctx.findSymbol key = none ↔ ∀ s ∈ ctx.catalog.symbols, ¬ s.HasKey key) ∧
    ∀ before s after, ctx.catalog.symbols = before ++ s :: after →
      ∃ id key, s.identifier = .ok id ∧ s.documentationKey = .ok key ∧
        ((∀ s' ∈ before, ¬ s'.HasKey id ∧ ¬ s'.HasKey key) →
          ctx.findSymbol id = some s ∧ ctx.findSymbol key = some s ∧
          ∀ (current : Option TypeSymbol) (mode : Mode) (e : Xml.Node) (cited : String),
            cited = key ∨ cited = id ∧ cited.startsWith unresolvedMark = false → RefersBy cited e →
            Renderer.see { ctx with current } mode e =
              Renderer.shown { ctx with current } mode s (Text.flat e.innerText)) := by
  have hfind := findSymbol_eq_find? hb
  refine ⟨fun key s => ?_, fun key => ?_, fun before s after hsymbols => ?_⟩
  · rw [hfind, List.find?_eq_some_iff_append]
    simp only [decide_eq_true_eq, Bool.not_eq_eq_eq_not, Bool.not_true, decide_eq_false_iff_not]
  · rw [hfind, List.find?_eq_none]
    simp only [decide_eq_true_eq]
  · have hs : ctx.catalog.Declares s := Catalog.mem_symbols.1 (by rw [hsymbols]; simp)
    obtain ⟨id, key, hid, hkey⟩ := Hierarchy.exists_keys hb hs
    refine ⟨id, key, hid, hkey, fun hbefore => ?_⟩
    have hfound : ∀ cited, cited = id ∨ cited = key → ctx.findSymbol cited = some s := by
      intro cited hcited
      have hhas : s.HasKey cited := by
        rcases hcited with rfl | rfl
        · exact .inl hid
        · exact .inr hkey
      have hfirst : ∀ s' ∈ before, ¬ s'.HasKey cited := by
        rintro s' hs' h
        rcases hcited with rfl | rfl
        · exact (hbefore s' hs').1 h
        · exact (hbefore s' hs').2 h
      rw [hfind, hsymbols, List.find?_append, List.find?_eq_none.2 (by simpa using hfirst)]
      simp [hhas]
    refine ⟨hfound id (.inl rfl), hfound key (.inr rfl), fun current mode e cited hcited he => ?_⟩
    rw [Renderer.see_of_refersBy he]
    rcases hcited with rfl | ⟨rfl, hmark⟩
    · exact Renderer.reference_eq_shown hs (hfound _ (.inr rfl))
        (Symbol.not_marked_of_documentationKey hkey) mode _
    · exact Renderer.reference_eq_shown hs (hfound _ (.inl rfl)) hmark mode _

/-- A type with an event, as the unit of a number declares it. -/
def gateType (number : Nat) (unit : String) : TypeSymbol :=
  { address := { root := .declared number 0 }, unit
    decl := { ref := .named "Zoo" "Gate" [] none
              members := [.event { name := "Opened", handler := .system "EventHandler" }] } }

def gateOpened (t : TypeSymbol) : MemberSymbol :=
  { address := t.address.under (.member 0), owner := t
    decl := .event { name := "Opened", handler := .system "EventHandler" } }

/-- Two units that declare the same type. -/
def gates : Context :=
  let units : List MetadataUnit := ["Zoo", "Annex"].map fun name =>
    { name, types := [(gateType 0 name).decl] }
  { catalog := { units }, hierarchy := (Hierarchy.build { units }).toOption.getD {}, outcomes := [] }

/-- A reference by either key of the event is shown as that of the first unit. -/
theorem findSymbol_of_build_gates :
    Hierarchy.build gates.catalog = .ok gates.hierarchy ∧
    gates.catalog.symbols = [.type (gateType 0 "Zoo"), .member (gateOpened (gateType 0 "Zoo")),
      .type (gateType 1 "Annex"), .member (gateOpened (gateType 1 "Annex"))] ∧
    gates.findSymbol "Zoo.Gate.Opened" = some (.member (gateOpened (gateType 0 "Zoo"))) ∧
    gates.findSymbol "E:Zoo.Gate.Opened" = some (.member (gateOpened (gateType 0 "Zoo"))) ∧
    ∀ mode e, RefersBy "E:Zoo.Gate.Opened" e → Renderer.see { gates with } mode e =
      Renderer.shown { gates with } mode (.member (gateOpened (gateType 0 "Zoo")))
        (Text.flat e.innerText) := by
  have hb : Hierarchy.build gates.catalog = .ok gates.hierarchy := by cbv
  have hsymbols : gates.catalog.symbols =
      [.type (gateType 0 "Zoo")] ++ .member (gateOpened (gateType 0 "Zoo")) ::
        [.type (gateType 1 "Annex"), .member (gateOpened (gateType 1 "Annex"))] := by rfl
  obtain ⟨id, key, hid, hkey, hall⟩ := (findSymbol_of_build hb).2.2 _ _ _ hsymbols
  obtain rfl : "Zoo.Gate.Opened" = id := Except.ok.inj (Eq.trans (by cbv) hid)
  obtain rfl : "E:Zoo.Gate.Opened" = key := Except.ok.inj (Eq.trans (by cbv) hkey)
  obtain ⟨hfoundById, hfoundByKey, hshown⟩ := hall fun s' hs' => by
    cases List.mem_singleton.1 hs'
    decide +kernel
  exact ⟨hb, hsymbols, hfoundById, hfoundByKey,
    fun mode e he => hshown none mode e _ (.inl rfl) he⟩

end Context

end ApiDoc
