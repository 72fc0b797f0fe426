import ApiDoc.Proofs.LiteralText

/-!
# Values in declarations

A declaration shows the value of a literal field or the default of a parameter after an equals sign.
The whole line is put on one line, its literals with it, so what is shown is the literal with its
blanks collapsed (`declaration_value`): the line holds the literal as it is exactly if that has
single spaces only, and two values cannot be told apart exactly if their literals are alike.
-/

namespace ApiDoc

open Text

/-! ## Places for values -/

/-- A symbol with a place for a value, under a name: `place v` has the value `v` there. -/
inductive HoldsValue : String → (Data → Symbol) → Prop
  /-- The value of a literal field. -/
  | field (address : Address) (owner : Option TypeSymbol) {f : Field} : f.isLiteral = true →
    HoldsValue f.name fun v => .member ⟨address, owner, .field { f with value := v }⟩
  /-- The default of a parameter of a method. -/
  | method (address : Address) (owner : Option TypeSymbol) (d : Method)
    (before after : List Parameter) {p : Parameter} : p.hasDefault = true → HoldsValue p.name fun v =>
      .member ⟨address, owner, .method { d with
        parameters := before ++ { p with default := v } :: after }⟩
  | constructor (address : Address) (owner : Option TypeSymbol) (c : Callable)
    (before after : List Parameter) {p : Parameter} : p.hasDefault = true →
    HoldsValue p.name fun v => .member ⟨address, owner, .constructor { c with
      parameters := before ++ { p with default := v } :: after }⟩
  | indexer (address : Address) (owner : Option TypeSymbol) (q : Property)
    (before after : List Parameter) {p : Parameter} : p.hasDefault = true →
    HoldsValue p.name fun v => .member ⟨address, owner, .property { q with
      indexParameters := before ++ { p with default := v } :: after }⟩
  /-- The default of a parameter of a delegate. -/
  | delegate (address : Address) (unit : Option String) {t : TypeDecl} (m : Method)
    (before after : List Parameter) {p : Parameter} : t.category = .delegateType →
    p.hasDefault = true → HoldsValue p.name fun v => .type ⟨address, unit, { t with
      invoke := some { m with parameters := before ++ { p with default := v } :: after } }⟩

/-! ## Lines -/

/-- Texts with a place for a value: the literal stands after an equals sign, and before that a blank
if the value has a name to show. The rest does not depend on the value. -/
def Embeds (name : String) (line : Data → String) : Prop :=
  ∃ before after, (∀ v, line v = before ++ "= " ++ literal v ++ after) ∧
    (withoutBlanks name ≠ [] → ∃ front, before = front ++ " " ∧ withoutBlanks front ≠ [])

namespace Embeds

variable {name : String} {line : Data → String}

theorem around (h : Embeds name line) (before after : String) :
    Embeds name fun v => before ++ line v ++ after := by
  obtain ⟨first, last, hline, hfront⟩ := h
  refine ⟨before ++ first, last ++ after, fun v => ?_, fun hname => ?_⟩
  · simp only [hline, String.append_assoc]
  · obtain ⟨front, rfl, hne⟩ := hfront hname
    refine ⟨before ++ front, (String.append_assoc ..).symm, ?_⟩
    rw [withoutBlanks_append]
    exact List.append_ne_nil_of_right_ne_nil _ hne

/-- One of several texts with separators between. -/
theorem intercalate (h : Embeds name line) (separator : String) (before after : List String) :
    Embeds name fun v => separator.intercalate (before ++ line v :: after) := by
  induction before with
  | nil =>
    cases after with
    | nil => simpa using h
    | cons s after =>
      simpa [String.append_assoc] using
        h.around "" (separator ++ separator.intercalate (s :: after))
  | cons s before ih =>
    have hnext : ∀ v, separator.intercalate (s :: before ++ line v :: after) =
        s ++ separator ++ separator.intercalate (before ++ line v :: after) ++ "" := by
      intro v
      cases before <;> simp [String.append_assoc]
    simp only [hnext]
    exact ih.around (s ++ separator) ""

end Embeds

theorem solid_equals : Solid "=" := Unspaced.solid (by decide) (by decide)

/-! ## Parameters -/

namespace Parameter

variable {p : Parameter}

/-- What a parameter shows before its default, up to the equals sign. -/
def named (p : Parameter) : String := p.passing ++ p.type.displayName ++ " " ++ p.name

/-- A parameter shows its default as it is: only what stands before it is trimmed. -/
theorem full_default (hp : p.hasDefault = true) (v : Data) :
    ({ p with default := v } : Parameter).full =
      trimStart (p.named ++ " ") ++ "= " ++ literal v := by
  have hwritten : p.named ++ " = " ++ literal v = p.named ++ " " ++ "=" ++ (" " ++ literal v) := by
    simp only [String.append_assoc]
    rfl
  have hend := trimEnd_around (solid_literal v) (p.named ++ " = ") ""
  calc ({ p with default := v } : Parameter).full
      = trim (p.named ++ (if p.hasDefault then " = " ++ literal v else "")) := rfl
    _ = trimStart (trimEnd (p.named ++ " = " ++ literal v ++ "")) := by
      rw [if_pos hp, ← String.append_assoc, String.append_empty, trim]
    _ = trimStart (p.named ++ " " ++ "=" ++ (" " ++ literal v)) := by
      rw [hend, ← hwritten]
      exact congrArg trimStart (String.append_empty)
    _ = trimStart (p.named ++ " ") ++ "=" ++ (" " ++ literal v) := trimStart_around solid_equals _ _
    _ = trimStart (p.named ++ " ") ++ "= " ++ literal v := by
      simp only [String.append_assoc]
      rfl

theorem embeds_full (hp : p.hasDefault = true) :
    Embeds p.name fun v => ({ p with default := v } : Parameter).full := by
  refine ⟨trimStart (p.named ++ " "), "", fun v => ?_, fun hname => ?_⟩
  · rw [String.append_empty]
    exact full_default hp v
  · have hnamed : withoutBlanks p.named ≠ [] := by
      rw [named, withoutBlanks_append]
      exact List.append_ne_nil_of_right_ne_nil _ hname
    exact ⟨trimStart p.named, trimStart_space hnamed, by rwa [withoutBlanks_trimStart]⟩

end Parameter

theorem embeds_fullList (before after : List Parameter) {p : Parameter} (hp : p.hasDefault = true) :
    Embeds p.name fun v => fullList (before ++ { p with default := v } :: after) := by
  simp only [fullList, List.map_append, List.map_cons]
  exact (Parameter.embeds_full hp).intercalate ", " _ _

/-! ## Symbols -/

theorem Field.embeds_value {f : Field} (hf : f.isLiteral = true) : ∃ line, Embeds f.name line ∧
    ∀ v, ({ f with value := v } : Field).declaration = flat (line v) := by
  have hconstant : ∀ v, ({ f with value := v } : Field).isConstant = f.isConstant := fun _ => rfl
  let words := visibility f.modifiers
    ++ (if f.isConstant then ["const"] else if f.isStatic then ["static"] else [])
    ++ (if f.isReadonly then ["readonly"] else [])
  let front := spaced words ++ " " ++ f.type.displayName ++ " " ++ f.name
  refine ⟨fun v => front ++ " " ++ "= " ++ literal v,
    ⟨front ++ " ", "", fun v => ?_, fun hname => ?_⟩, fun v => ?_⟩
  · rw [String.append_empty]
  · refine ⟨front, rfl, ?_⟩
    rw [withoutBlanks_append]
    exact List.append_ne_nil_of_right_ne_nil _ hname
  · have hspace : " = " = " " ++ "= " := rfl
    calc ({ f with value := v } : Field).declaration
        = flat (front ++ (if f.isLiteral then " = " ++ literal v else "")) := rfl
      _ = flat (front ++ " " ++ "= " ++ literal v) := by
        rw [if_pos hf, hspace]
        simp only [String.append_assoc]

/-- A declaration is a text put on one line that embeds the value. -/
theorem HoldsValue.exists_line {name : String} {place : Data → Symbol} (h : HoldsValue name place) :
    ∃ line, Embeds name line ∧ ∀ v, (place v).declaration = flat (line v) := by
  cases h with
  | field _ _ hf => exact Field.embeds_value hf
  | method address owner d before after hp =>
    let head := spaced d.writtenModifiers ++ " " ++ d.returnType.displayName ++ " " ++
      (d.displayName ++ "(")
    refine ⟨_, (embeds_fullList before after hp).around head ")", fun v => congrArg flat ?_⟩
    simp only [head, MemberSymbol.fullSignature, String.append_assoc]
    rfl
  | constructor address owner c before after hp =>
    let name := MemberSymbol.displayName ⟨address, owner, .constructor c⟩
    let head := spaced c.writtenModifiers ++ "  " ++ (name ++ "(")
    refine ⟨_, (embeds_fullList before after hp).around head ")", fun v => congrArg flat ?_⟩
    simp only [head, MemberSymbol.fullSignature, String.append_assoc]
    rfl
  | @indexer address owner q before after p hp =>
    -- the accessors follow the parameters
    let accessors := spaced (accessorText (q.shownModifiers.contains "public") "get" q.getter ++
      accessorText (q.shownModifiers.contains "public") "set" q.setter)
    let head := spaced q.shownModifiers ++ " " ++ q.type.displayName ++ " " ++ "this["
    have hindexer : ∀ v, ({ q with
        indexParameters := before ++ { p with default := v } :: after } :
          Property).isIndexer = true := by
      simp [Property.isIndexer]
    refine ⟨_, (embeds_fullList before after hp).around head ("]" ++ " " ++ braced accessors),
      fun v => ?_⟩
    simp only [Symbol.declaration, MemberSymbol.declaration, Property.declaration, hindexer,
      if_true]
    refine congrArg flat ?_
    simp only [head, String.append_assoc]
    rfl
  | @delegate address unit t m before after p ht hp =>
    let head := spaced t.shownModifiers ++ " " ++ m.returnType.displayName ++ " " ++
      t.ref.displayName ++ "("
    exact ⟨_, (embeds_fullList before after hp).around head ")", fun v => if_pos ht⟩

/-! ## What is shown -/

namespace Text

/-- What a text with single spaces only holds has single spaces only. -/
theorem SingleSpaced.collapse_eq {line s : String} (h : SingleSpaced line)
    (hs : s.toList <:+: line.toList) : collapse s = s := by
  have hone : OneLine s.toList := h.oneLine.subset hs.subset
  have hapart := List.IsChain.infix h.apart hs
  have hsame : collapseFrom false s.toList = s.toList := collapseFrom_eq_self hone hapart nofun
  rw [collapse, hsame, String.ofList_toList]

/-- The literals of two texts are alike exactly if the texts are. -/
theorem alike_literal_text {s s' : String} :
    Alike (literal (.scalar (.text s))) (literal (.scalar (.text s'))) ↔ Alike s s' := by
  have hquote : isBlank '"' = false := by decide
  have hquoted : ∀ s, collapseFrom false (literal (.scalar (.text s))).toList =
      '"' :: (collapseFrom false s.toList ++ ['"']) := by
    intro s
    have hcs : (literal (.scalar (.text s))).toList = '"' :: (s.toList ++ ['"']) := by
      simp [literal]
    rw [hcs, collapseFrom_other _ _ hquote, collapseFrom_append, collapseFrom_other _ _ hquote]
    rfl
  rw [alike_iff, alike_iff, hquoted, hquoted]
  simp

end Text

/-- A declaration shows a value after an equals sign, but with the blanks of its literal collapsed.
So it holds the literal itself exactly if that has single spaces only, and it tells two values apart
exactly if their literals differ in more than blanks. -/
theorem declaration_value {name : String} {place : Data → Symbol} (h : HoldsValue name place) :
    (∃ before after,
      (∀ v, (place v).declaration = before ++ "= " ++ collapse (literal v) ++ after) ∧
      (withoutBlanks name ≠ [] → ∃ front, before = front ++ " ")) ∧
    (∀ v, (literal v).toList <:+: (place v).declaration.toList ↔ collapse (literal v) = literal v) ∧
    (∀ v v', (place v).declaration = (place v').declaration ↔ Alike (literal v) (literal v')) ∧
    ∀ s s', (place (.scalar (.text s))).declaration = (place (.scalar (.text s'))).declaration ↔
      Alike s s' := by
  obtain ⟨line, ⟨first, last, hline, hname⟩, hplace⟩ := h.exists_line
  have hequals : first ++ "= " = first ++ "=" ++ " " := by
    rw [String.append_assoc]
    rfl
  have hshown : ∀ v, (place v).declaration =
      trimStart (collapse first) ++ "= " ++ collapse (literal v) ++ trimEnd (collapse last) := by
    intro v
    have hfirst : trimStart (collapse (first ++ "= ")) = trimStart (collapse first) ++ "= " := by
      rw [hequals, collapse_around solid_equals, trimStart_around solid_equals.collapse,
        String.append_assoc]
      rfl
    rw [hplace, hline, flat_around (solid_literal v), hfirst]
  have hsame : ∀ v v', (place v).declaration = (place v').declaration ↔
      Alike (literal v) (literal v') := by
    intro v v'
    rw [hshown, hshown, String.append_left_inj, String.append_right_inj]
    exact Iff.rfl
  refine ⟨⟨_, _, hshown, fun hne => ?_⟩, fun v => ⟨fun hinfix => ?_, fun hcollapse => ?_⟩, hsame,
    fun s s' => (hsame _ _).trans alike_literal_text⟩
  · obtain ⟨front, rfl, hfront⟩ := hname hne
    exact exists_trimStart_collapse hfront
  · rw [hplace] at hinfix
    exact (singleSpaced_flat _).collapse_eq hinfix
  · rw [hshown, hcollapse]
    simp only [String.toList_append]
    exact List.infix_append _ _ _

/-- `void Say(int times, string text = "…")` -/
def saying (text : String) : Symbol :=
  .member ⟨⟨.detached 0, []⟩, none, .method {
    name := "Say", parameters := [{ name := "times", type := .system "Int32" },
      { name := "text", type := .system "String", hasDefault := true
        default := .scalar (.text text) }] }⟩

theorem declaration_value_saying :
    (saying "Sit.\tStay.").declaration = (saying "Sit. Stay.").declaration ∧
      ¬ (literal (.scalar (.text "Sit.\tStay."))).toList <:+:
        (saying "Sit.\tStay.").declaration.toList ∧
      (literal (.scalar (.text "Sit. Stay."))).toList <:+:
        (saying "Sit. Stay.").declaration.toList ∧
      (saying "Sit.").declaration ≠ (saying "Stay.").declaration := by
  obtain ⟨-, hholds, -, hsame⟩ := declaration_value
    (.method ⟨.detached 0, []⟩ none { name := "Say" }
      [{ name := "times", type := .system "Int32" }] []
      (p := { name := "text", type := .system "String", hasDefault := true }) rfl)
  refine ⟨(hsame _ _).2 (by unfold Alike; decide), fun hinfix => ?_, (hholds _).2 (by decide),
    fun heq => ?_⟩
  · have hcollapse := (hholds _).1 hinfix
    revert hcollapse
    decide
  · have halike := (hsame _ _).1 heq
    revert halike
    unfold Alike
    decide

/-- `const string Motto = "…"` -/
def motto (text : String) : Symbol :=
  .member ⟨⟨.detached 0, []⟩, none, .field {
    name := "Motto", type := .system "String", isLiteral := true, value := .scalar (.text text) }⟩

theorem declaration_motto :
    (motto "Sit.  Stay.").declaration = "public const string Motto = \"Sit. Stay.\"" ∧
      (motto "Sit.  Stay.").declaration = (motto "Sit. Stay.").declaration ∧
      ¬ (literal (.scalar (.text "Sit.  Stay."))).toList <:+:
        (motto "Sit.  Stay.").declaration.toList := by
  decide +kernel

end ApiDoc
