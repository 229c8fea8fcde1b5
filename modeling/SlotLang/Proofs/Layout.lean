import Mathlib.Data.List.Induction
import SlotLang.Proofs.Grammar
import SlotLang.Proofs.Index
import SlotLang.Settings.Json

/-!
# SlotLang.Proofs.Layout

What settings a JSON object stands for does not depend on how it is laid out. Its members may come
in any order, with any blanks between them and any escapes in their strings, and among them may be
members of which the settings know nothing, with values of any kind. All that counts is which of the
known keys are there, and with what values (`Settings.stated`).

This holds for every decoder that keeps two laws. It reads JSON as the grammar has it and leaves to
a visitor what the members mean (`Decoder.Standard`), and the visitor starts from the default
settings and passes over what it does not know (`Defaulting`).

The decoder of this library keeps the laws (`standard_readJson`, `defaulting_gathered`). It goes
from one member to the next, and a member is read in three steps: the key, the colon and the value,
which is decoded if the key is known and passed over if not.
-/

namespace SlotLang.Settings

open SlotLang.Json

/-! ### Objects -/

/-- What the settings can tell apart in a value. -/
inductive Content
  | null
  | text (value : String)
  | other
  deriving DecidableEq, Repr

namespace Content

/-- The string, if it is one. -/
def name? : Content → Option String
  | text value => some value
  | null | other => none

/-- The string or its absence, if it is one of them. -/
def format? : Content → Option (Option String)
  | text value => some (some value)
  | null => some none
  | other => none

end Content

/-- The texts of values. -/
inductive HasContent : Content → List Char → Prop
  | null : HasContent .null ['n', 'u', 'l', 'l']
  | text {value : String} {body : List Char} : Spells value.toList body →
      HasContent (.text value) ('"' :: (body ++ ['"']))
  | other {v : List Char} : IsValue v → HasContent .other v

/-- The key and the value of a member. -/
abbrev Member := String × Content

/-- The texts of a member. -/
inductive IsMember : Member → List Char → Prop
  | mk {key : String} {content : Content} {ws body ws₁ ws₂ v : List Char} : Blank ws →
      Spells key.toList body → Blank ws₁ → Blank ws₂ → HasContent content v →
      IsMember (key, content) (ws ++ '"' :: (body ++ '"' :: (ws₁ ++ ':' :: (ws₂ ++ v))))

/-- The texts of further members, up to the end of the object. -/
inductive IsRest : List Member → List Char → Prop
  | close {ws : List Char} : Blank ws → IsRest [] (ws ++ ['\x7d'])
  | next {p : Member} {ps : List Member} {ws cs rest : List Char} : Blank ws → IsMember p cs →
      IsRest ps rest → IsRest (p :: ps) (ws ++ ',' :: (cs ++ rest))

/-- The texts of an object with these members. -/
inductive IsObject : List Member → List Char → Prop
  | empty {ws ws₁ ws₂ : List Char} : Blank ws → Blank ws₁ → Blank ws₂ →
      IsObject [] (ws ++ '\x7b' :: (ws₁ ++ '\x7d' :: ws₂))
  | filled {p : Member} {ps : List Member} {ws cs rest ws₁ : List Char} : Blank ws →
      IsMember p cs → IsRest ps rest → Blank ws₁ →
      IsObject (p :: ps) (ws ++ '\x7b' :: (cs ++ (rest ++ ws₁)))

/-- A known key has a value of the kind that it asks for. -/
structure Proper (p : Member) : Prop where
  name : p.1 = "entry_function" ∨ p.1 = "print_routine" → ∃ value, p.2 = .text value
  format : p.1 = "print_format" → p.2 = .null ∨ ∃ value, p.2 = .text value

/-- The text is an object with these members. No key comes twice, and known keys have proper
values. -/
structure Presents (text : String) (members : List Member) : Prop where
  object : IsObject members text.toList
  keys : (members.map Prod.fst).Nodup
  proper : ∀ p ∈ members, Proper p

/-- The default settings, with the values of the known keys that are there. -/
def stated (members : List Member) : Settings where
  entryFunction := ((members.lookup "entry_function").bind Content.name?).getD default.entryFunction
  printRoutine := ((members.lookup "print_routine").bind Content.name?).getD default.printRoutine
  printFormat := ((members.lookup "print_format").bind Content.format?).getD default.printFormat

/-- Settings that are checked: they are usable, or there is something wrong with them. -/
def checked (s : Settings) : Except SettingsError (Settings × List Event) :=
  match s.validate with
  | .ok events => .ok (s, events)
  | .error fault => .error (.unusable fault)

/-! ### Decoders -/

/-- The settings with a value for a field, if the value is of the kind that the field asks for. -/
def set? (s : Settings) : Field → Content → Option Settings
  | .entryFunction, .text value => some { s with entryFunction := value }
  | .printRoutine, .text value => some { s with printRoutine := value }
  | .printFormat, .text value => some { s with printFormat := some value }
  | .printFormat, .null => some { s with printFormat := none }
  | _, _ => none

/-- What settings the members of an object make is said member by member. Without any, all fields
have their defaults. A known key that comes for the first time sets its field, and an unknown key
does nothing. -/
structure Defaulting (visit : List Member → Option Settings) : Prop where
  nothing : visit [] = some default
  known : ∀ {members : List Member} {s s' : Settings} {field : Field} {content : Content},
    visit members = some s → field.key ∉ members.map Prod.fst → s.set? field content = some s' →
    visit (members ++ [(field.key, content)]) = some s'
  unknown : ∀ {members : List Member} {key : String} (content : Content),
    (∀ field : Field, field.key ≠ key) → visit (members ++ [(key, content)]) = visit members

/-- A decoder that reads JSON as it is defined. However the text of an object is laid out, the
settings are those that the visitor makes of its members. -/
structure Decoder.Standard (decode : Decoder) (visit : List Member → Option Settings) : Prop where
  decode_eq : ∀ {text : String} {members : List Member} {s : Settings},
    IsObject members text.toList → visit members = some s → decode text = .ok s

theorem ofKey?_eq_some {key : String} {field : Field} (h : Field.ofKey? key = some field) :
    key = field.key := by
  unfold Field.ofKey? at h
  split at h <;> cases h <;> rfl

theorem ofKey?_eq_none_iff {key : String} :
    Field.ofKey? key = none ↔ ∀ field : Field, field.key ≠ key := by
  constructor
  · rintro h field rfl
    rw [Field.ofKey?_key] at h
    cases h
  · intro h
    cases hfield : Field.ofKey? key with
    | none => rfl
    | some field => exact absurd (ofKey?_eq_some hfield).symm (h field)

/-! ### Members as they are gathered -/

namespace Given

/-- A field is given by a value, if the value is of the kind that the field asks for. -/
def put? (g : Given) : Field → Content → Option Given
  | .entryFunction, .text value => some { g with entryFunction := some value }
  | .printRoutine, .text value => some { g with printRoutine := some value }
  | .printFormat, .text value => some { g with printFormat := some (some value) }
  | .printFormat, .null => some { g with printFormat := some none }
  | _, _ => none

/-- One more member is taken. No field may be given twice. -/
def take? (g : Given) (p : Member) : Option Given :=
  match Field.ofKey? p.1 with
  | none => some g
  | some field => if g.has field then none else g.put? field p.2

theorem put?_settings {g g' : Given} {field : Field} {content : Content}
    (h : g.put? field content = some g') : g.settings.set? field content = some g'.settings := by
  cases field <;> cases content <;> simp only [put?, Option.some.injEq, reduceCtorEq] at h <;>
    subst h <;> rfl

/-- A value that fits its field in the settings can be given. -/
theorem exists_put? {g : Given} {field : Field} {content : Content} {s : Settings}
    (h : g.settings.set? field content = some s) :
    ∃ g', g.put? field content = some g' ∧ g'.settings = s := by
  cases hput : g.put? field content with
  | some g' => exact ⟨g', rfl, Option.some.inj ((put?_settings hput).symm.trans h)⟩
  | none => cases field <;> cases content <;> cases hput <;> cases h

/-- Only the field itself is given. -/
theorem has_put? {g g' : Given} {field field' : Field} {content : Content}
    (h : g.put? field content = some g') (hhas : g'.has field' = true) :
    g.has field' = true ∨ field' = field := by
  cases field <;> cases content <;> simp only [put?, Option.some.injEq, reduceCtorEq] at h <;>
    subst h <;> cases field' <;> first | exact .inr rfl | exact .inl hhas

/-- A field that is given has its key among the members. -/
theorem key_mem_of_has {members : List Member} {g : Given}
    (h : members.foldlM take? nothing = some g) {field : Field} (hhas : g.has field = true) :
    field.key ∈ members.map Prod.fst := by
  induction members using List.reverseRecOn generalizing g with
  | nil =>
      cases h
      cases field <;> cases hhas
  | append_singleton members p ih =>
      rw [List.foldlM_append] at h
      obtain ⟨g₁, hg₁, hlast⟩ := Option.bind_eq_some_iff.mp h
      have htake : g₁.take? p = some g := by simpa using hlast
      rw [List.map_append, List.mem_append]
      unfold take? at htake
      cases hfield : Field.ofKey? p.1 with
      | none =>
          simp only [hfield, Option.some.injEq] at htake
          subst htake
          exact .inl (ih hg₁ hhas)
      | some field' =>
          simp only [hfield] at htake
          split at htake
          · cases htake
          · rcases has_put? htake hhas with hold | rfl
            · exact .inl (ih hg₁ hold)
            · exact .inr (List.mem_singleton.mpr (ofKey?_eq_some hfield).symm)

end Given

/-- The settings that members make, if no key comes twice and known keys have proper values. -/
def gathered (members : List Member) : Option Settings :=
  (members.foldlM Given.take? .nothing).map Given.settings

theorem gathered_concat (members : List Member) (p : Member) :
    gathered (members ++ [p]) =
      (members.foldlM Given.take? .nothing).bind fun g => (g.take? p).map Given.settings := by
  rw [gathered, List.foldlM_append]
  cases members.foldlM Given.take? .nothing with
  | none => rfl
  | some g => simp

theorem defaulting_gathered : Defaulting gathered where
  nothing := rfl
  known := by
    intro members s s' field content hvisit hnew hset
    obtain ⟨g, hg, rfl⟩ := Option.map_eq_some_iff.mp hvisit
    have hfree : g.has field = false := by
      rw [Bool.eq_false_iff]
      exact fun hhas => hnew (Given.key_mem_of_has hg hhas)
    obtain ⟨g', hput, rfl⟩ := Given.exists_put? hset
    have htake : g.take? (field.key, content) = some g' := by
      simp [Given.take?, hfree, hput]
    rw [gathered_concat, hg]
    simp [htake]
  unknown := by
    intro members key content hunknown
    have hnone := ofKey?_eq_none_iff.mpr hunknown
    rw [gathered_concat, gathered]
    cases members.foldlM Given.take? .nothing with
    | none => rfl
    | some g => simp [Given.take?, hnone]

/-! ### Values -/

theorem HasContent.isValue {content : Content} {v : List Char} (h : HasContent content v) :
    IsValue v := by
  cases h with
  | null => exact .scalar (.word (by decide))
  | text hbody => exact .scalar (.text hbody.raw)
  | other hv => exact hv

theorem readName_append {value : String} {body ws : List Char} (hws : Blank ws)
    (hbody : Spells value.toList body) (rest : List Char) :
    readName (ws ++ ('"' :: (body ++ ['"']) ++ rest)) = .ok (value, rest) := by
  have hskip := skipSpace_append (c := '"') hws rfl (body ++ '"' :: rest)
  have hread := readText_spells hbody rest
  simp only [List.cons_append, List.append_assoc, List.nil_append, readName, hskip, hread, bind,
    Except.bind, String.ofList_toList]
  rfl

theorem readFormat_append {content : Content} {format : Option String} {v ws : List Char}
    (hws : Blank ws) (hv : HasContent content v) (hformat : content.format? = some format)
    (rest : List Char) : readFormat (ws ++ (v ++ rest)) = .ok (format, rest) := by
  cases hv with
  | null =>
      cases hformat
      have hskip := skipSpace_append (c := 'n') hws rfl (['u', 'l', 'l'] ++ rest)
      show readFormat (ws ++ 'n' :: (['u', 'l', 'l'] ++ rest)) = _
      simp only [readFormat, hskip, readWord_append]
      rfl
  | @text value body hbody =>
      cases hformat
      have hskip := skipSpace_append (c := '"') hws rfl (body ++ ['"'] ++ rest)
      have hread := readName_append blank_nil hbody rest
      rw [List.cons_append] at hread ⊢
      simp only [readFormat, hskip]
      change (readName ([] ++ '"' :: (body ++ ['"'] ++ rest)) >>= fun read =>
        .ok (some read.1, read.2)) = _
      rw [hread]
      rfl
  | other => cases hformat

/-- The value of a known key is decoded. -/
theorem readField_append {g g' : Given} {field : Field} {content : Content} {ws v : List Char}
    (hput : g.put? field content = some g') (hws : Blank ws) (hv : HasContent content v)
    (rest : List Char) : readField g field (ws ++ (v ++ rest)) = .ok (g', rest) := by
  cases field with
  | entryFunction =>
      cases hv with
      | text hbody =>
          cases hput
          simp only [readField, readName_append hws hbody rest]
          rfl
      | null | other => cases hput
  | printRoutine =>
      cases hv with
      | text hbody =>
          cases hput
          simp only [readField, readName_append hws hbody rest]
          rfl
      | null | other => cases hput
  | printFormat =>
      cases content with
      | other => cases hput
      | null | text =>
          cases hput
          simp only [readField, readFormat_append hws hv rfl rest]
          rfl

/-- A member is read, whatever its key. -/
theorem readMember_append {g g' : Given} {p : Member} {cs rest : List Char} (h : IsMember p cs)
    (htake : g.take? p = some g') (hrest : Ends rest) :
    ∃ tail, skipSpace (cs ++ rest) = '"' :: tail ∧ readMember g tail = .ok (g', rest) := by
  cases h with
  | @mk key content ws body ws₁ ws₂ v hws hbody hws₁ hws₂ hv =>
      refine ⟨body ++ '"' :: (ws₁ ++ ':' :: (ws₂ ++ (v ++ rest))), ?_, ?_⟩
      · simp only [List.append_assoc, List.cons_append]
        exact skipSpace_append hws rfl _
      · have hkey := readText_spells hbody (ws₁ ++ ':' :: (ws₂ ++ (v ++ rest)))
        have hcolon := readColon_append hws₁ (ws₂ ++ (v ++ rest))
        simp only [readMember, hkey, bind, Except.bind, String.ofList_toList, hcolon]
        unfold Given.take? at htake
        -- the value is passed over or decoded
        cases hfield : Field.ofKey? key with
        | none =>
            simp only [hfield, Option.some.injEq] at htake
            subst htake
            simp only [skipValue_append hv.isValue hws₂ hrest]
            rfl
        | some field =>
            simp only [hfield] at htake
            split at htake
            · cases htake
            · next hfree =>
              simp only [hfree, Bool.false_eq_true, if_false]
              exact readField_append htake hws₂ hv rest

/-! ### Whole objects -/

theorem IsRest.ends {ps : List Member} {cs : List Char} (h : IsRest ps cs) (rest : List Char) :
    Ends (cs ++ rest) := by
  cases h with
  | close hws =>
      rw [List.append_assoc]
      exact ends_append hws (by decide) _
  | next hws =>
      rw [List.append_assoc]
      exact ends_append hws (by decide) _

theorem IsRest.length_lt {ps : List Member} {cs : List Char} (h : IsRest ps cs) :
    ps.length < cs.length := by
  induction h with
  | close => simp
  | next _ _ _ ih =>
      simp only [List.length_cons, List.length_append] at ih ⊢
      omega

/-- The members are read one by one. -/
theorem readMembers_append {ps : List Member} {cs : List Char} (h : IsRest ps cs) :
    ∀ {g g' : Given} {fuel : Nat}, ps.length < fuel → ps.foldlM Given.take? g = some g' →
      ∀ rest, readMembers fuel g (cs ++ rest) = .ok (g', rest) := by
  induction h with
  | @close ws hws =>
      intro g g' fuel hfuel hgather rest
      cases fuel with
      | zero => omega
      | succ fuel =>
          cases hgather
          have hskip := skipSpace_append (c := '\x7d') hws rfl rest
          simp only [List.append_assoc, List.singleton_append, readMembers, hskip]
  | @next p ps ws cs tail hws hp htail ih =>
      intro g g' fuel hfuel hgather rest
      cases fuel with
      | zero => omega
      | succ fuel =>
          obtain ⟨g₁, htake, hgather⟩ := Option.bind_eq_some_iff.mp hgather
          have hskip := skipSpace_append (c := ',') hws rfl (cs ++ (tail ++ rest))
          obtain ⟨quoted, hquote, hread⟩ := readMember_append hp htake (htail.ends rest)
          have hrest := ih (Nat.lt_of_succ_lt_succ hfuel) hgather rest
          rw [List.append_assoc, List.cons_append, List.append_assoc]
          simp only [readMembers, hskip, hquote, hread, bind, Except.bind]
          exact hrest

theorem readGiven_of {members : List Member} {cs : List Char} (h : IsObject members cs) {g : Given}
    (hgather : members.foldlM Given.take? .nothing = some g) : readGiven cs = .ok g := by
  cases h with
  | @empty ws ws₁ ws₂ hws hws₁ hws₂ =>
      cases hgather
      have hopen := skipSpace_append (c := '\x7b') hws rfl (ws₁ ++ '\x7d' :: ws₂)
      have hclose := skipSpace_append (c := '\x7d') hws₁ rfl ws₂
      have hend := skipSpace_eq_nil hws₂
      simp only [readGiven, hopen, readObject, hclose, bind, Except.bind, hend]
      rfl
  | @filled p ps ws cs rest ws₁ hws hp hrest hws₁ =>
      obtain ⟨g₁, htake, hgather⟩ := Option.bind_eq_some_iff.mp hgather
      have hopen := skipSpace_append (c := '\x7b') hws rfl (cs ++ (rest ++ ws₁))
      obtain ⟨quoted, hquote, hread⟩ := readMember_append hp htake (hrest.ends ws₁)
      -- every further member takes at least one character
      have hfuel : ps.length < (rest ++ ws₁).length + 1 := by
        have hlt := hrest.length_lt
        rw [List.length_append]
        omega
      have hmembers := readMembers_append hrest hfuel hgather ws₁
      have hend := skipSpace_eq_nil hws₁
      simp only [readGiven, hopen, readObject, hquote, hread, hmembers, bind, Except.bind, hend]
      rfl

/-- The decoder reads every text of the grammar, and gathers the members. -/
theorem standard_readJson : Decoder.Standard readJson gathered where
  decode_eq := by
    intro text members s hobject hgathered
    obtain ⟨g, hg, rfl⟩ := Option.map_eq_some_iff.mp hgathered
    rw [readJson, readGiven_of hobject hg]

/-! ### What a text states -/

/-- A member with an unknown key states nothing. -/
theorem stated_concat_unknown {members : List Member} {key : String}
    (h : ∀ field : Field, field.key ≠ key) (content : Content) :
    stated (members ++ [(key, content)]) = stated members := by
  have hentry := h .entryFunction
  have hroutine := h .printRoutine
  have hformat := h .printFormat
  simp only [Field.key] at hentry hroutine hformat
  simp [stated, List.lookup_append, List.lookup_cons, beq_eq_false_iff_ne.mpr hentry,
    beq_eq_false_iff_ne.mpr hroutine, beq_eq_false_iff_ne.mpr hformat]

/-- A member with a known key states the value of its field. -/
theorem stated_concat_known {members : List Member} {field : Field} {content : Content}
    (hnew : field.key ∉ members.map Prod.fst) (hproper : Proper (field.key, content)) :
    (stated members).set? field content =
      some (stated (members ++ [(field.key, content)])) := by
  have hnone := lookup_eq_none_iff_notMem.mpr hnew
  cases field with
  | entryFunction =>
      obtain ⟨value, rfl⟩ : ∃ value, content = .text value := hproper.name (.inl rfl)
      simp only [Field.key] at hnone
      simp [set?, stated, List.lookup_append, List.lookup_cons, hnone, Field.key, Content.name?]
  | printRoutine =>
      obtain ⟨value, rfl⟩ : ∃ value, content = .text value := hproper.name (.inr rfl)
      simp only [Field.key] at hnone
      simp [set?, stated, List.lookup_append, List.lookup_cons, hnone, Field.key, Content.name?]
  | printFormat =>
      simp only [Field.key] at hnone
      rcases hproper.format rfl with hnull | ⟨value, htext⟩
      · cases hnull
        simp [set?, stated, List.lookup_append, List.lookup_cons, hnone, Field.key,
          Content.format?]
      · cases htext
        simp [set?, stated, List.lookup_append, List.lookup_cons, hnone, Field.key,
          Content.format?]

/-- A visitor that keeps the laws makes of members what they state. -/
theorem Defaulting.visit_eq {visit : List Member → Option Settings} (h : Defaulting visit)
    {members : List Member} (hkeys : (members.map Prod.fst).Nodup)
    (hproper : ∀ p ∈ members, Proper p) : visit members = some (stated members) := by
  -- the laws are about the last member, so the induction is from the end of the list
  induction members using List.reverseRecOn with
  | nil => exact h.nothing
  | append_singleton members p ih =>
      rw [List.map_append, List.map_singleton, ← List.concat_eq_append, List.nodup_concat] at hkeys
      rw [List.forall_mem_append] at hproper
      obtain ⟨key, content⟩ := p
      have hvisit := ih hkeys.2 hproper.1
      cases hfield : Field.ofKey? key with
      | none =>
          have hunknown := ofKey?_eq_none_iff.mp hfield
          rw [h.unknown content hunknown, stated_concat_unknown hunknown, hvisit]
      | some field =>
          cases ofKey?_eq_some hfield
          exact h.known hvisit hkeys.1
            (stated_concat_known hkeys.1 (hproper.2 _ (List.mem_singleton_self _)))

/-- Settings that are decoded are checked. -/
theorem ofJson_of_decode {decode : Decoder} {text : String} {s : Settings}
    (h : decode text = .ok s) : ofJson decode text = s.checked := by
  rw [ofJson, ofText, h]
  dsimp only
  rw [checked]
  cases s.validate <;> rfl

section

variable {decode : Decoder} {visit : List Member → Option Settings}

/-- A text that presents members is read as they say. -/
theorem Presents.ofJson_eq (hdecode : decode.Standard visit) (hvisit : Defaulting visit)
    {text : String} {members : List Member} (h : Presents text members) :
    ofJson decode text = (stated members).checked :=
  ofJson_of_decode (hdecode.decode_eq h.object (hvisit.visit_eq h.keys h.proper))

theorem lookup_eq_of_mem_iff {members members' : List Member}
    (hkeys : (members.map Prod.fst).Nodup) (hkeys' : (members'.map Prod.fst).Nodup) {key : String}
    (h : ∀ content, (key, content) ∈ members' ↔ (key, content) ∈ members) :
    members'.lookup key = members.lookup key := by
  apply Option.ext
  intro content
  rw [lookup_eq_some_iff_mem hkeys', lookup_eq_some_iff_mem hkeys]
  exact h content

/-- Settings do not depend on the layout of a text. An object yields the default settings with the
values of the known keys that are there, if they are usable. So texts in which the known keys have
the same values yield the same, whatever else is in them and in whichever order. If the format is
null there is none, and without it the default one is kept. -/
theorem ofJson_eq_stated (hdecode : decode.Standard visit) (hvisit : Defaulting visit)
    {text : String} {members : List Member} (h : Presents text members) :
    ofJson decode text = (stated members).checked ∧
      (∀ text' members', Presents text' members' →
        (∀ key ∈ ["entry_function", "print_routine", "print_format"], ∀ content,
          (key, content) ∈ members' ↔ (key, content) ∈ members) →
        ofJson decode text' = ofJson decode text) ∧
      (("print_format", .null) ∈ members → (stated members).printFormat = none) ∧
      ("print_format" ∉ members.map Prod.fst →
        (stated members).printFormat = default.printFormat) := by
  refine ⟨h.ofJson_eq hdecode hvisit, ?_, ?_, ?_⟩
  · intro text' members' h' hsame
    have hlookup : ∀ key ∈ ["entry_function", "print_routine", "print_format"],
        members'.lookup key = members.lookup key :=
      fun key hkey => lookup_eq_of_mem_iff h.keys h'.keys (hsame key hkey)
    have hstated : stated members' = stated members := by
      simp only [stated, hlookup "entry_function" (by decide), hlookup "print_routine" (by decide),
        hlookup "print_format" (by decide)]
    rw [h'.ofJson_eq hdecode hvisit, h.ofJson_eq hdecode hvisit, hstated]
  · intro hnull
    rw [stated, (lookup_eq_some_iff_mem h.keys).mpr hnull]
    rfl
  · intro hmissing
    rw [stated, lookup_eq_none_iff_notMem.mpr hmissing]
    rfl

end

/-- An unknown member with a known key and half a pair inside it, and escapes in a key and a
value. -/
def scattered : String :=
  "\x7b \"note\" : [\x7b\"entry_function\":\"\\ud800\"\x7d , -1.5E+3] ,\n" ++
    "\"print_f\\u006Frmat\":null,\"entry_function\":\"\\uD83D\\uDE00\"\x7d\t"

theorem presents_scattered :
    Presents scattered
      [("note", .other), ("print_format", .null), ("entry_function", .text "😀")] := by
  have hspace : Blank [' '] := by simp [Blank]
  have hhalf : HexUnit ['d', '8', '0', '0'] 0xD800 :=
    .mk (i := 13) (j := 8) (k := 0) (l := 0) (by decide) (by decide) (by decide) (by decide)
  have hnested : IsValue ('\x7b' :: ([] ++ '"' :: ("entry_function".toList ++ '"' ::
      ([] ++ [':'])) ++ ([] ++ ('"' :: ('\\' :: 'u' :: (['d', '8', '0', '0'] ++ []) ++ ['"']) ++
        ([] ++ ['\x7d']))))) :=
    .filled (b := .object) (.object blank_nil (spells_self (by simp)).raw blank_nil) blank_nil
      (.scalar (.text (.unit hhalf .nil))) (.close blank_nil)
  have hnumber : IsNumber (['-'] ++ (['1'] ++ (['.', '5'] ++ ('E' :: (['+'] ++ ['3']))))) :=
    .mk (by decide) (.digits (by decide) (by simp [Digits])) (.some (by simp [Digits]))
      (.some (by decide) (by decide) (by simp [Digits]))
  have hlist := IsValue.filled (b := .list) .list blank_nil hnested
    (.next hspace .list hspace (.scalar (.number hnumber)) (.close blank_nil))
  have hnote : IsMember ("note", .other) _ :=
    .mk hspace (spells_self (by simp)) hspace hspace (.other hlist)
  have hunit : HexUnit ['0', '0', '6', 'F'] 'o'.toNat :=
    .mk (i := 0) (j := 0) (k := 6) (l := 15) (by decide) (by decide) (by decide) (by decide)
  have hkey : Spells "print_format".toList
      ("print_f".toList ++ ('\\' :: 'u' :: ['0', '0', '6', 'F'] ++ "rmat".toList)) :=
    (spells_self (s := "print_f".toList) (by simp)).append
      (.cons (.unit hunit) (spells_self (s := "rmat".toList) (by simp)))
  have hformat : IsMember ("print_format", .null) _ :=
    .mk (by simp [Blank] : Blank ['\n']) hkey blank_nil blank_nil .null
  have hfirst : HexUnit ['D', '8', '3', 'D'] (0xD800 + 61) :=
    .mk (i := 13) (j := 8) (k := 3) (l := 13) (by decide) (by decide) (by decide) (by decide)
  have hsecond : HexUnit ['D', 'E', '0', '0'] (0xDC00 + 512) :=
    .mk (i := 13) (j := 14) (k := 0) (l := 0) (by decide) (by decide) (by decide) (by decide)
  have hvalue : Spells "😀".toList _ :=
    .cons (.pair hfirst hsecond (by decide) (by decide) (by decide)) .nil
  have hentry : IsMember ("entry_function", .text "😀") _ :=
    .mk blank_nil (spells_self (by simp)) blank_nil blank_nil (.text hvalue)
  have hobject := IsObject.filled blank_nil hnote (.next hspace hformat
    (.next blank_nil hentry (.close blank_nil))) (by simp [Blank] : Blank ['\t'])
  refine ⟨hobject, by decide, fun p hp => ?_⟩
  simp only [List.mem_cons, List.not_mem_nil, or_false] at hp
  rcases hp with rfl | rfl | rfl <;> exact ⟨by simp, by simp⟩

theorem ofJson_eq_stated_scattered :
    Presents scattered
        [("note", .other), ("print_format", .null), ("entry_function", .text "😀")] ∧
      ofJson readJson scattered = .ok (⟨"😀", "printf", none⟩, [.bareValues "printf"]) :=
  ⟨presents_scattered,
    (ofJson_eq_stated standard_readJson defaulting_gathered presents_scattered).1⟩

end SlotLang.Settings
