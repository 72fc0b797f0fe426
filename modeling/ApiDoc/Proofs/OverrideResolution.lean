import Mathlib
import ApiDoc.Proofs.Resolution

/-!
# What overriding methods resolve to

A deferring method that overrides something inherits from the last method of its override chain
alone (`value_candidates_of_chain`). It comes to the entry of that method, if that has one of its
own, even where a nearer method of the chain has one too, and otherwise to that of a symbol which
the last method leads to (`resolve_of_overrideChain`). So an overriding method may come to nothing
although a nearer method of its chain is documented (`resolve_passes_over_nearer`).
-/

namespace ApiDoc.Context

open Answer

variable {ctx : Context} {t : TypeSymbol} {m root : MethodSymbol} {chain : List MethodSymbol}
  {own : Option Xml.Node} {key : String}

/-- The methods that a method of a type overrides in the bases of the type, nearest first. -/
def Overrides (ctx : Context) (t : TypeSymbol) (m : MethodSymbol)
    (chain : List MethodSymbol) : Prop :=
  ∃ signature, m.signature [] = .ok signature ∧
    Hierarchy.OverrideChain ctx.findType signature [t.address] t.decl.base chain

namespace Overrides

theorem mem_callables (hctx : ctx.WellBuilt) (h : ctx.Overrides t m chain) (hroot : root ∈ chain) :
    ∃ u ∈ ctx.catalog.types, u.address ≠ t.address ∧ root ∈ u.callables := by
  obtain ⟨signature, -, hchain⟩ := h
  obtain ⟨ref, u, hu, hne, hr⟩ := hchain.declared root hroot
  exact ⟨u, hctx.mem_of_findType hu, by simpa using hne, hr⟩

theorem inherits (hctx : ctx.WellBuilt) (h : ctx.Overrides t m chain) (hroot : root ∈ chain) :
    ctx.catalog.Inherits root.toMember := by
  obtain ⟨u, hu, -, hr⟩ := h.mem_callables hctx hroot
  exact .method hu hr

/-- No method overrides itself. -/
theorem address_ne (hctx : ctx.WellBuilt) (ht : t ∈ ctx.catalog.types) (hm : m ∈ t.callables)
    (h : ctx.Overrides t m chain) (hroot : root ∈ chain) : root.address ≠ m.address := by
  intro heq
  obtain ⟨u, hu, hne, hr⟩ := h.mem_callables hctx hroot
  have hsame : root = m := Catalog.method_ext hu hr ht hm heq
  have howner := (TypeSymbol.owner_of_mem_callables hr).symm.trans
    (hsame ▸ TypeSymbol.owner_of_mem_callables hm)
  exact hne (congrArg TypeSymbol.address (Option.some.inj howner))

theorem unique {chain' : List MethodSymbol} (h : ctx.Overrides t m chain)
    (h' : ctx.Overrides t m chain') : chain = chain' := by
  obtain ⟨signature, hs, hchain⟩ := h
  obtain ⟨signature', hs', hchain'⟩ := h'
  cases hs.symm.trans hs'
  exact hchain.unique hchain'

end Overrides

/-! ## The only candidate -/

theorem exists_overrides (hctx : ctx.WellBuilt) (ht : t ∈ ctx.catalog.types) (hm : m ∈ t.callables)
    (ho : m.decl.isOverride = true) :
    ∃ chain, ctx.Overrides t m chain ∧ ctx.overrideRoot m = chain.getLastD m := by
  obtain ⟨signature, chain, hs, hchain, hroot⟩ := hctx.exists_overrideChain ht hm ho
  exact ⟨chain, ⟨signature, hs, hchain⟩, hroot⟩

/-- The last method of the chain is all that an overriding method inherits from. -/
theorem value_candidates_of_chain (hctx : ctx.WellBuilt) (ht : t ∈ ctx.catalog.types)
    (hm : m ∈ t.callables) (ho : m.decl.isOverride = true) (h : ctx.Overrides t m chain)
    (hroot : chain.getLast? = some root) :
    (ctx.candidates m.toMember).value = .ok [root.toMember] := by
  obtain ⟨chain', h', hlast⟩ := exists_overrides hctx ht hm ho
  obtain rfl := h.unique h'
  have heq : ctx.overrideRoot m = root := by simp [hlast, hroot]
  have hsources : ctx.methodSources m = pure [root] := by
    rw [methodSources, heq]
    exact if_neg (h.address_ne hctx ht hm (List.mem_of_getLast? hroot))
  rw [value_candidates_method, hsources]
  rfl

/-! ## The entry of the last method -/

/-- The last method of the chain with an entry of its own, under another key, ends the search. -/
theorem value_search_root {node : Xml.Node} (hi : ctx.catalog.Inherits root.toMember)
    (hc : ctx.content? root.toMember = some node) (hne : root.toMember.documentationKey ≠ .ok key) :
    (ctx.search ctx.settings.documentation.deferTag (entering ctx.memberKeys key) false
      [(root.toMember, [key])]).value.map Ending.node? = .ok (some node) := by
  obtain ⟨rootKey, hk⟩ := exists_key_of_content? hc
  have hway : rootKey ∉ [key] := by
    rintro hmem
    exact hne (List.mem_singleton.1 hmem ▸ hk)
  rw [value_search_leaf hk hway ((mem_entering hi hk).2 hway) hc]
  rfl

/-- Under the key of the method asked about, the last method of the chain closes a cycle. -/
theorem value_search_root_of_eq (hk : root.toMember.documentationKey = .ok key) :
    (ctx.search ctx.settings.documentation.deferTag (entering ctx.memberKeys key) false
      [(root.toMember, [key])]).value.map Ending.node? = .ok none := by
  rw [value_search_again hk List.mem_cons_self, value_search_nil]
  rfl

/-- A deferring method that overrides something comes to the entry of the last method of its
override chain, whatever the nearer ones are documented with. If that has none of its own, all it
can come to is an entry that the last method leads to; and if the two methods have one key, it
comes to nothing. -/
theorem resolve_of_overrideChain (hctx : ctx.WellBuilt) (ht : t ∈ ctx.catalog.types)
    (hm : m ∈ t.callables) (ho : m.decl.isOverride = true)
    (hown : (ctx.entry (.member m.toMember)).value = .ok own)
    (hdefer : Entry.isDeferred own ctx.settings.documentation.deferTag = true) :
    (∃ chain, ctx.Overrides t m chain) ∧
    ∀ chain root, ctx.Overrides t m chain → chain.getLast? = some root →
      (∀ node, ctx.content? root.toMember = some node →
        root.toMember.documentationKey ≠ m.toMember.documentationKey →
        (ctx.resolve (.member m.toMember)).Yields (.ok (some node))) ∧
      (∀ node, (ctx.resolve (.member m.toMember)).value = .ok (some node) →
        ∃ s, ctx.Reaches root.toMember s ∧ ctx.content? s = some node) ∧
      (root.toMember.documentationKey = m.toMember.documentationKey →
        (ctx.resolve (.member m.toMember)).Yields (.ok none)) := by
  obtain ⟨chain, hchain, -⟩ := exists_overrides hctx ht hm ho
  refine ⟨⟨chain, hchain⟩, fun chain root hchain hroot => ?_⟩
  obtain ⟨key, hk⟩ := exists_key_of_deferred hown hdefer
  have hn := value_candidates_of_chain hctx ht hm ho hchain hroot
  have hyields := yields_resolve (.inl rfl) hown hdefer
  rw [hk, hn] at hyields
  rw [hk]
  refine ⟨fun node hc hne => ?_, fun node hnode => ?_, fun heq => ?_⟩
  · have hi := hchain.inherits hctx (List.mem_of_getLast? hroot)
    exact hyields.steady.yields_iff.2 (hyields.value_eq.trans (value_search_root hi hc hne))
  · rw [hyields.value_eq] at hnode
    obtain ⟨ending, hsearch, hending⟩ := map_eq_ok.1 hnode
    exact exists_content_of_search (fun _ _ => .tail) (by simpa using .refl) hsearch hending
  · exact hyields.steady.yields_iff.2 (hyields.value_eq.trans (value_search_root_of_eq heq))

/-! ## A nearer method that is documented -/

/-- Three types in a line; the method of each overrides that of the one before. -/
def speakersCatalog : Catalog :=
  { units := [
      { name := "Zoo"
        types := [
          { ref := .named "Zoo" "Animal" [] none
            members := [.method { name := "Speak", modifiers := ["public", "virtual"] }] },
          { ref := .named "Zoo" "Dog" [] none, base := some (.named "Zoo" "Animal" [] none)
            members := [.method { name := "Speak", modifiers := ["public", "override"] }] },
          { ref := .named "Zoo" "Puppy" [] none, base := some (.named "Zoo" "Dog" [] none)
            members := [.method { name := "Speak", modifiers := ["public", "override"] }] }] }] }

/-- The three types with some entries. -/
def speakers (entries : Entries) : Context :=
  { catalog := speakersCatalog
    hierarchy := (Hierarchy.build speakersCatalog).toOption.getD {}
    outcomes := [("Zoo", .ok (.ready entries 0))] }

def speaker (type : Nat) : TypeSymbol :=
  speakersCatalog.types[type]?.getD ⟨⟨.detached 0, []⟩, none, { ref := .void }⟩

/-- The method of one of the types. -/
def speak (type : Nat) : MethodSymbol :=
  { address := ⟨.declared 0 type, [.member 0]⟩, owner := some (speaker type)
    decl := {
      name := "Speak"
      modifiers := ["public", if type = 0 then "virtual" else "override"] } }

def deferringEntry : Xml.Node :=
  .element (.plain "member") [] [.element (.plain "inheritdoc") [] []]

def describingEntry (text : String) : Xml.Node :=
  .element (.plain "member") [] [.element (.plain "summary") [] [.text text]]

theorem speakers_wellBuilt (entries : Entries) : (speakers entries).WellBuilt where
  hierarchy := by cbv
  dispatches := by simp [speakers]

theorem speaker_mem_types (entries : Entries) : speaker 2 ∈ (speakers entries).catalog.types :=
  .tail _ (.tail _ (.head _))

theorem speak_mem_callables : speak 2 ∈ (speaker 2).callables := .head _

theorem overrides_speak (entries : Entries) :
    (speakers entries).Overrides (speaker 2) (speak 2) [speak 1, speak 0] := by
  refine ⟨"Speak", by cbv, ?_⟩
  have hfind1 : (speakers entries).findType (.named "Zoo" "Dog" [] none) =
      some (speaker 1) := by cbv
  have hfind0 : (speakers entries).findType (.named "Zoo" "Animal" [] none) =
      some (speaker 0) := by cbv
  exact .further hfind1 (by decide) (by cbv) rfl rfl (.origin hfind0 (by decide) (by cbv) rfl)

theorem resolve_of_overrideChain_speakers :
    ((speakers [("M:Zoo.Animal.Speak", describingEntry "Makes a sound."),
      ("M:Zoo.Dog.Speak", describingEntry "Barks."), ("M:Zoo.Puppy.Speak", deferringEntry)]).resolve
      (.member (speak 2).toMember)).Yields (.ok (some (describingEntry "Makes a sound."))) := by
  have hkey2 : (speak 2).toMember.documentationKey = .ok "M:Zoo.Puppy.Speak" := by cbv
  have hkey0 : (speak 0).toMember.documentationKey = .ok "M:Zoo.Animal.Speak" := by cbv
  have hown : ((speakers [("M:Zoo.Animal.Speak", describingEntry "Makes a sound."),
      ("M:Zoo.Dog.Speak", describingEntry "Barks."), ("M:Zoo.Puppy.Speak", deferringEntry)]).entry
      (.member (speak 2).toMember)).value = .ok (some deferringEntry) := by cbv
  obtain ⟨-, hchain⟩ := resolve_of_overrideChain (speakers_wellBuilt _) (speaker_mem_types _)
    speak_mem_callables rfl hown (by cbv)
  obtain ⟨hroot, -, -⟩ := hchain [speak 1, speak 0] (speak 0) (overrides_speak _) rfl
  exact hroot _ (by cbv) (by simp [hkey0, hkey2])

/-- Of the three methods only the one in between has an entry of its own. -/
def barking : Context :=
  speakers [("M:Zoo.Dog.Speak", describingEntry "Barks."), ("M:Zoo.Puppy.Speak", deferringEntry)]

/-- The entry of the method in between is passed over, for the search goes straight to the end of
the chain. -/
theorem resolve_barking : (barking.resolve (.member (speak 2).toMember)).value = .ok none := by
  have hown : (barking.entry (.member (speak 2).toMember)).value =
      .ok (some deferringEntry) := by cbv
  have hkey2 : (speak 2).toMember.documentationKey = .ok "M:Zoo.Puppy.Speak" := by cbv
  have hnext2 : (barking.candidates (speak 2).toMember).value = .ok [(speak 0).toMember] := by cbv
  have hkey0 : (speak 0).toMember.documentationKey = .ok "M:Zoo.Animal.Speak" := by cbv
  have hnext0 : (barking.candidates (speak 0).toMember).value = .ok [] := by cbv
  have hfound0 : (barking.foreignEntry (.member (speak 0).toMember)).value = .ok none := by cbv
  have hkeys : barking.memberKeys =
      ["M:Zoo.Animal.Speak", "M:Zoo.Dog.Speak", "M:Zoo.Puppy.Speak"] := by cbv
  rw [(yields_resolve (.inl rfl) hown (by cbv)).value_eq, hkey2, hnext2]
  refine map_eq_ok.2 ⟨.exhausted false, ?_, rfl⟩
  refine (value_search_inner hkey0 (by simp) (by simp [hkeys, entering]) hfound0 (by cbv)).trans ?_
  rw [hnext0]
  exact value_search_nil

/-- The nearest entry in the override chain need not be the one that a method comes to. -/
theorem resolve_passes_over_nearer :
    ¬ ∀ (ctx : Context) (t : TypeSymbol) (m : MethodSymbol) (chain : List MethodSymbol)
      (own : Option Xml.Node) (node : Xml.Node),
      ctx.WellBuilt → ctx.SourcesRead → t ∈ ctx.catalog.types → m ∈ t.callables →
      m.decl.isOverride = true → (ctx.entry (.member m.toMember)).value = .ok own →
      Entry.isDeferred own ctx.settings.documentation.deferTag = true → ctx.Overrides t m chain →
      chain.findSome? (fun r => ctx.content? r.toMember) = some node →
      (ctx.resolve (.member m.toMember)).value = .ok (some node) := by
  intro hnearest
  have hnode := hnearest barking (speaker 2) (speak 2) [speak 1, speak 0] (some deferringEntry)
    (describingEntry "Barks.") (speakers_wellBuilt _) (by simp [SourcesRead, barking, speakers])
    (speaker_mem_types _) speak_mem_callables rfl (by cbv) (by cbv) (overrides_speak _) (by cbv)
  rw [resolve_barking] at hnode
  simp at hnode

end ApiDoc.Context
