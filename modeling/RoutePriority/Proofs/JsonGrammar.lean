import RoutePriority.Json.Tree
import RoutePriority.Proofs.JsonSpelling

/-!
# The grammar of JSON texts

`Derives` is the grammar of JSON over characters: values, elements (a value between blanks), the
comma-separated lists of elements and members.  `ofText?_eq_some_iff` says that the reader accepts
exactly the texts that derive an element, and gives its tree.

The reader is a lexer followed by a machine that moves from place to place.  `scan` is the two run
together, so that a text can be split anywhere.  Soundness is an invariant of the machine: what has
been read leads to the place (`Reached`), and every token and every blank keeps this.  Completeness
is one statement for each sort of phrase: reading the phrase takes the machine past it.
-/

namespace RoutePriority.Json

/-- A part of a JSON text, with what it holds. -/
inductive Phrase where
  | value (tree : Tree)
  | element (tree : Tree)
  | elements (items : List Tree)
  | member (name : Option String) (tree : Tree)
  | members (members : List (Option String × Tree))

/-- The texts of a phrase. -/
inductive Derives : Phrase → List Char → Prop
  | null {text : List Char} (h : Spelled text .null) : Derives (.value .null) text
  | bool {text : List Char} {b : Bool} (h : Spelled text (.bool b)) :
      Derives (.value (.bool b)) text
  | number {text : List Char} {n : Option JsonNumber} (h : Spelled text (.number n)) :
      Derives (.value (.number n)) text
  | string {text : List Char} {s : Option String} (h : Spelled text (.string s)) :
      Derives (.value (.string s)) text
  | emptyArray {blank : List Char} (hblank : Blank blank) :
      Derives (.value (.array [])) ('[' :: (blank ++ [']']))
  | array {text : List Char} {items : List Tree} (hitems : Derives (.elements items) text) :
      Derives (.value (.array items)) ('[' :: (text ++ [']']))
  | emptyObject {blank : List Char} (hblank : Blank blank) :
      Derives (.value (.object [])) ('{' :: (blank ++ ['}']))
  | object {text : List Char} {members : List (Option String × Tree)}
      (hmembers : Derives (.members members) text) :
      Derives (.value (.object members)) ('{' :: (text ++ ['}']))
  | element {before text after : List Char} {tree : Tree} (hbefore : Blank before)
      (hvalue : Derives (.value tree) text) (hafter : Blank after) :
      Derives (.element tree) (before ++ (text ++ after))
  | lastElement {text : List Char} {tree : Tree} (h : Derives (.element tree) text) :
      Derives (.elements [tree]) text
  | elements {text rest : List Char} {tree : Tree} {items : List Tree}
      (h : Derives (.element tree) text) (hrest : Derives (.elements items) rest) :
      Derives (.elements (tree :: items)) (text ++ ',' :: rest)
  | member {before spelled after text : List Char} {name : Option String} {tree : Tree}
      (hbefore : Blank before) (hname : Spelled spelled (.string name)) (hafter : Blank after)
      (helement : Derives (.element tree) text) :
      Derives (.member name tree) (before ++ (spelled ++ (after ++ ':' :: text)))
  | lastMember {text : List Char} {name : Option String} {tree : Tree}
      (h : Derives (.member name tree) text) : Derives (.members [(name, tree)]) text
  | members {text rest : List Char} {name : Option String} {tree : Tree}
      {members : List (Option String × Tree)} (h : Derives (.member name tree) text)
      (hrest : Derives (.members members) rest) :
      Derives (.members ((name, tree) :: members)) (text ++ ',' :: rest)

/-! ## The reader over characters -/

/-- The place that a text leads to. -/
def scan (place : Place) (text : List Char) : Option Place :=
  (Token.ofChars? text).bind (·.foldlM Place.step? place)

theorem scan_nil (place : Place) : scan place [] = some place := by
  rw [scan, Token.ofChars?]
  rfl

theorem scan_space {c : Char} (h : isSpace c = true) (place : Place) (text : List Char) :
    scan place (c :: text) = scan place text := by
  rw [scan, Token.ofChars?, if_pos h, scan]

/-- A row of blanks leaves the place as it is. -/
theorem scan_blank {blank : List Char} (h : Blank blank) (place : Place) (text : List Char) :
    scan place (blank ++ text) = scan place text := by
  induction blank with
  | nil => rfl
  | cons c rest ih =>
      obtain ⟨hc, hrest⟩ := List.forall_mem_cons.mp h
      exact (scan_space (isSpace_iff.mpr hc) place _).trans (ih hrest)

/-- A text in which the lexer finds no token leads nowhere. -/
theorem scan_eq_none {c : Char} {text : List Char} (hspace : isSpace c = false)
    (h : lexeme? c text = none) (place : Place) : scan place (c :: text) = none := by
  have htokens : Token.ofChars? (c :: text) = none := by
    rw [Token.ofChars?, if_neg (by rw [hspace]; exact Bool.false_ne_true)]
    split
    next => rfl
    next hsome => cases hsome.symm.trans h
  rw [scan, htokens, Option.bind_none]

/-- The machine makes one step on a token that the lexer finds. -/
theorem scan_lexeme {c : Char} {text after : List Char} {token : Token} (hspace : isSpace c = false)
    (h : lexeme? c text = some (token, after)) (place : Place) :
    scan place (c :: text) = (place.step? token).bind (scan · after) := by
  have htokens : Token.ofChars? (c :: text) = (Token.ofChars? after).map (token :: ·) := by
    rw [Token.ofChars?, if_neg (by rw [hspace]; exact Bool.false_ne_true)]
    split
    next hnone => cases hnone.symm.trans h
    next found left hsome =>
      cases hsome.symm.trans h
      rfl
  unfold scan
  rw [htokens]
  cases Token.ofChars? after with
  | none => cases place.step? token <;> rfl
  | some tokens => rfl

/-- A spelled token takes one step of the reader.  Only a number depends on what follows; all other
tokens show where they end. -/
theorem scan_spelled {spelled after : List Char} {token : Token} (h : Spelled spelled token)
    (hafter : ∀ value, token = .number value → EndsNumber after) {place next : Place}
    (hstep : place.step? token = some next) :
    scan place (spelled ++ after) = scan next after := by
  obtain ⟨c, text, rfl, hspace, hlexeme⟩ := h.lexeme?_append hafter
  rw [List.cons_append, scan_lexeme hspace hlexeme, hstep, Option.bind_some]

/-- The reader of trees runs the steps to the end of the text. -/
theorem ofText?_eq_some_iff_scan {text : String} {tree : Tree} :
    Tree.ofText? text = some tree ↔ scan (.value []) text.toList = some (.done tree) := by
  unfold Tree.ofText? Tree.ofTokens? scan
  cases Token.ofChars? text.toList with
  | none => simp
  | some tokens =>
      simp only [Option.bind_some]
      cases tokens.foldlM Place.step? (.value []) with
      | none => simp
      | some place => cases place <;> simp

/-! ## Soundness -/

theorem Blank.nil : Blank [] := by
  simp [Blank]

/-- Two rows of blanks make one. -/
theorem Blank.append {left right : List Char} (hleft : Blank left) (hright : Blank right) :
    Blank (left ++ right) := by
  intro c hc
  rcases List.mem_append.mp hc with hc | hc
  · exact hleft c hc
  · exact hright c hc

theorem Blank.singleton {c : Char} (h : isSpace c = true) : Blank [c] := by
  simpa [Blank] using isSpace_iff.mp h

/-- Whether blanks may follow the texts of a phrase; a value ends with its last character. -/
def Phrase.TakesBlanks : Phrase → Prop
  | .value _ => False
  | _ => True

/-- Blanks behind a phrase that takes them belong to it. -/
theorem Derives.append_blank {phrase : Phrase} {text blank : List Char} (h : Derives phrase text)
    (htakes : phrase.TakesBlanks) (hblank : Blank blank) : Derives phrase (text ++ blank) := by
  induction h with
  | null | bool | number | string | emptyArray | array | emptyObject | object => exact htakes.elim
  | element hbefore hvalue hafter =>
      simpa using Derives.element hbefore hvalue (hafter.append hblank)
  | lastElement _ ih => exact .lastElement (ih trivial)
  | elements h _ _ ih => simpa using Derives.elements h (ih trivial)
  | member hbefore hname hafter _ ih =>
      simpa using Derives.member hbefore hname hafter (ih trivial)
  | lastMember _ ih => exact .lastMember (ih trivial)
  | members h _ _ ih => simpa using Derives.members h (ih trivial)

/-- A value stands between blanks of any number. -/
theorem Derives.element_of_value {before text : List Char} {tree : Tree} (hbefore : Blank before)
    (h : Derives (.value tree) text) : Derives (.element tree) (before ++ text) := by
  simpa using Derives.element hbefore h .nil

/-- The blanks around an element may be missing. -/
theorem Derives.element_without_blanks {text : List Char} {tree : Tree}
    (h : Derives (.value tree) text) : Derives (.element tree) text :=
  .element_of_value .nil h

/-- One more element after a list of elements. -/
theorem Derives.elements_concat {items : List Tree} {tree : Tree} {text rest : List Char}
    (hitems : Derives (.elements items) text) (h : Derives (.element tree) rest) :
    Derives (.elements (items ++ [tree])) (text ++ ',' :: rest) := by
  induction items generalizing text with
  | nil => cases hitems
  | cons item items ih =>
      cases hitems with
      | lastElement hitem => exact .elements hitem (.lastElement h)
      | elements hitem hrest => simpa using Derives.elements hitem (ih hrest)

/-- One more member after a list of members. -/
theorem Derives.members_concat {members : List (Option String × Tree)} {name : Option String}
    {tree : Tree} {text rest : List Char} (hmembers : Derives (.members members) text)
    (h : Derives (.member name tree) rest) :
    Derives (.members (members ++ [(name, tree)])) (text ++ ',' :: rest) := by
  induction members generalizing text with
  | nil => cases hmembers
  | cons first members ih =>
      cases hmembers with
      | lastMember hmember => exact .members hmember (.lastMember h)
      | members hmember hrest => simpa using Derives.members hmember (ih hrest)

/-- The text leads to the place: it is the beginning of a JSON text, and what is complete in it is
what the place holds. -/
inductive Reached : Place → List Char → Prop
  | start {blank : List Char} (hblank : Blank blank) : Reached (.value []) blank
  | firstItem {outside : List Frame} {text blank : List Char} (h : Reached (.value outside) text)
      (hblank : Blank blank) : Reached (.firstItem outside) (text ++ '[' :: blank)
  | firstValue {outside : List Frame} {text : List Char} (h : Reached (.firstItem outside) text) :
      Reached (.value (.item [] :: outside)) text
  | nextValue {outside : List Frame} {items : List Tree} {text blank : List Char}
      (h : Reached (.afterItem items outside) text) (hblank : Blank blank) :
      Reached (.value (.item items :: outside)) (text ++ ',' :: blank)
  | afterItem {outside : List Frame} {items : List Tree} {text inner : List Char}
      (h : Reached (.value outside) text) (hitems : Derives (.elements items.reverse) inner) :
      Reached (.afterItem items outside) (text ++ '[' :: inner)
  | firstName {outside : List Frame} {text blank : List Char} (h : Reached (.value outside) text)
      (hblank : Blank blank) : Reached (.firstName outside) (text ++ '{' :: blank)
  | nextName {outside : List Frame} {members : List (Option String × Tree)}
      {text blank : List Char} (h : Reached (.afterMember members outside) text)
      (hblank : Blank blank) : Reached (.nextName members outside) (text ++ ',' :: blank)
  | firstColon {outside : List Frame} {name : Option String} {text spelled blank : List Char}
      (h : Reached (.firstName outside) text) (hname : Spelled spelled (.string name))
      (hblank : Blank blank) : Reached (.colon [] name outside) (text ++ (spelled ++ blank))
  | nextColon {outside : List Frame} {members : List (Option String × Tree)}
      {name : Option String} {text spelled blank : List Char}
      (h : Reached (.nextName members outside) text) (hname : Spelled spelled (.string name))
      (hblank : Blank blank) : Reached (.colon members name outside) (text ++ (spelled ++ blank))
  | memberValue {outside : List Frame} {members : List (Option String × Tree)}
      {name : Option String} {text blank : List Char}
      (h : Reached (.colon members name outside) text) (hblank : Blank blank) :
      Reached (.value (.member members name :: outside)) (text ++ ':' :: blank)
  | afterMember {outside : List Frame} {members : List (Option String × Tree)}
      {text inner : List Char} (h : Reached (.value outside) text)
      (hmembers : Derives (.members members.reverse) inner) :
      Reached (.afterMember members outside) (text ++ '{' :: inner)
  | done {tree : Tree} {text : List Char} (h : Derives (.element tree) text) :
      Reached (.done tree) text

namespace Reached

variable {place next : Place} {outside : List Frame} {text : List Char}

/-- A blank leads nowhere else. -/
theorem append_blank (h : Reached place text) {blank : List Char} (hblank : Blank blank) :
    Reached place (text ++ blank) := by
  induction h with
  | start h => exact .start (h.append hblank)
  | firstItem h hbefore => simpa using firstItem h (hbefore.append hblank)
  | firstValue _ ih => exact .firstValue ih
  | nextValue h hbefore => simpa using nextValue h (hbefore.append hblank)
  | afterItem h hitems => simpa using afterItem h (hitems.append_blank trivial hblank)
  | firstName h hbefore => simpa using firstName h (hbefore.append hblank)
  | nextName h hbefore => simpa using nextName h (hbefore.append hblank)
  | firstColon h hname hbefore => simpa using firstColon h hname (hbefore.append hblank)
  | nextColon h hname hbefore => simpa using nextColon h hname (hbefore.append hblank)
  | memberValue h hbefore => simpa using memberValue h (hbefore.append hblank)
  | afterMember h hmembers => simpa using afterMember h (hmembers.append_blank trivial hblank)
  | done h => exact .done (h.append_blank trivial hblank)

/-- Items that are read lead to the place after the last of them. -/
theorem items {items : List Tree} {inner : List Char} (h : Reached (.value outside) text)
    (hitems : Derives (.elements items) inner) :
    Reached (.afterItem items.reverse outside) (text ++ '[' :: inner) :=
  afterItem h (by rwa [List.reverse_reverse])

/-- Members that are read lead to the place after the last of them. -/
theorem members {members : List (Option String × Tree)} {inner : List Char}
    (h : Reached (.value outside) text) (hmembers : Derives (.members members) inner) :
    Reached (.afterMember members.reverse outside) (text ++ '{' :: inner) :=
  afterMember h (by rwa [List.reverse_reverse])

/-- A complete value leads to the place after it. -/
theorem after {tree : Tree} {value : List Char} (h : Reached (.value outside) text)
    (hvalue : Derives (.value tree) value) :
    Reached (Place.after tree outside) (text ++ value) := by
  cases h with
  | start hblank =>
      exact .done (.element_of_value hblank hvalue)
  | firstValue h =>
      cases h with
      | firstItem h hblank =>
          simpa [Place.after] using items h (.lastElement (.element_of_value hblank hvalue))
  | nextValue h hblank =>
      cases h with
      | afterItem h hitems =>
          have hlonger := hitems.elements_concat (.element_of_value hblank hvalue)
          simpa [Place.after] using items h hlonger
  | memberValue h hblank =>
      have helement := Derives.element_of_value hblank hvalue
      cases h with
      | firstColon h hname hafter =>
          cases h with
          | firstName h hbefore =>
              simpa [Place.after] using
                members h (.lastMember (.member hbefore hname hafter helement))
      | nextColon h hname hafter =>
          cases h with
          | nextName h hbefore =>
              cases h with
              | afterMember h hmembers =>
                  have hmember := Derives.member hbefore hname hafter helement
                  simpa [Place.after] using members h (hmembers.members_concat hmember)

variable {spelled : List Char} {token : Token}

/-- A spelled token that begins a value leads on to the next place. -/
theorem startValue? (h : Reached (.value outside) text) (hspelled : Spelled spelled token)
    (hstep : Place.startValue? outside token = some next) : Reached next (text ++ spelled) := by
  cases token with
  | null =>
      cases hstep
      exact h.after (.null hspelled)
  | bool b =>
      cases hstep
      exact h.after (.bool hspelled)
  | number n =>
      cases hstep
      exact h.after (.number hspelled)
  | string s =>
      cases hstep
      exact h.after (.string hspelled)
  | openArray =>
      cases hstep
      cases hspelled
      exact .firstItem h .nil
  | openObject =>
      cases hstep
      cases hspelled
      exact .firstName h .nil
  | closeArray | closeObject | colon | comma => cases hstep

/-- A token leads to the next place. -/
theorem step? (h : Reached place text) (hspelled : Spelled spelled token)
    (hstep : place.step? token = some next) : Reached next (text ++ spelled) := by
  cases place with
  | value outside =>
      exact h.startValue? hspelled hstep
  | firstItem outside =>
      cases token with
      | closeArray =>
          cases hstep
          cases hspelled
          cases h with
          | firstItem h hblank =>
              simpa using h.after (.emptyArray hblank)
      | null | bool | number | string | openArray | openObject | closeObject | colon | comma =>
          exact h.firstValue.startValue? hspelled hstep
  | afterItem items outside =>
      cases token with
      | comma =>
          cases hstep
          cases hspelled
          exact .nextValue h .nil
      | closeArray =>
          cases hstep
          cases hspelled
          cases h with
          | afterItem h hitems =>
              simpa using h.after (.array hitems)
      | null | bool | number | string | openArray | openObject | closeObject | colon =>
          cases hstep
  | firstName outside =>
      cases token with
      | string name =>
          cases hstep
          simpa using firstColon h hspelled .nil
      | closeObject =>
          cases hstep
          cases hspelled
          cases h with
          | firstName h hblank =>
              simpa using h.after (.emptyObject hblank)
      | null | bool | number | openArray | closeArray | openObject | colon | comma =>
          cases hstep
  | nextName members outside =>
      cases token with
      | string name =>
          cases hstep
          simpa using nextColon h hspelled .nil
      | null | bool | number | openArray | closeArray | openObject | closeObject | colon | comma =>
          cases hstep
  | colon members name outside =>
      cases token with
      | colon =>
          cases hstep
          cases hspelled
          exact .memberValue h .nil
      | null | bool | number | string | openArray | closeArray | openObject | closeObject
      | comma =>
          cases hstep
  | afterMember members outside =>
      cases token with
      | comma =>
          cases hstep
          cases hspelled
          exact .nextName h .nil
      | closeObject =>
          cases hstep
          cases hspelled
          cases h with
          | afterMember h hmembers =>
              simpa using h.after (.object hmembers)
      | null | bool | number | string | openArray | closeArray | openObject | colon =>
          cases hstep
  | done tree =>
      cases hstep

/-- A whole text leads to the place where the machine stops.  The induction is along the lexer, a
blank or a token at a time, and `Reached` is its invariant. -/
theorem scan (h : Reached place text) {rest : List Char} (hscan : scan place rest = some next) :
    Reached next (text ++ rest) := by
  fun_induction Token.ofChars? rest generalizing place text with
  | case1 =>
      rw [scan_nil] at hscan
      cases hscan
      simpa using h
  | case2 c rest hspace ih =>
      rw [scan_space hspace] at hscan
      simpa using ih (h.append_blank (.singleton hspace)) hscan
  | case3 c rest hspace hnone =>
      rw [scan_eq_none (Bool.eq_false_iff.mpr hspace) hnone] at hscan
      cases hscan
  | case4 c rest hspace token after hlexeme ih =>
      rw [scan_lexeme (Bool.eq_false_iff.mpr hspace) hlexeme] at hscan
      obtain ⟨following, hstep, hrest⟩ := Option.bind_eq_some_iff.mp hscan
      obtain ⟨spelled, hsplit, hspelled⟩ := exists_spelled_of_lexeme? hlexeme
      rw [hsplit, ← List.append_assoc]
      exact ih (h.step? hspelled hstep) hrest

end Reached

/-- A text that is read as a tree is an element with this tree. -/
theorem derives_of_ofText? {text : String} {tree : Tree} (h : Tree.ofText? text = some tree) :
    Derives (.element tree) text.toList := by
  have hdone := (Reached.start .nil).scan (ofText?_eq_some_iff_scan.mp h)
  cases hdone with
  | done h => exact h

/-! ## Completeness -/

/-- A value may come next, inside these containers: also where an array has just begun. -/
inductive Expects : Place → List Frame → Prop
  | value {outside : List Frame} : Expects (.value outside) outside
  | firstItem {outside : List Frame} : Expects (.firstItem outside) (.item [] :: outside)

/-- A name may come next, after these members. -/
inductive ExpectsName : Place → List (Option String × Tree) → List Frame → Prop
  | firstName {outside : List Frame} : ExpectsName (.firstName outside) [] outside
  | nextName {members : List (Option String × Tree)} {outside : List Frame} :
      ExpectsName (.nextName members outside) members outside

/-- Where a value may come next, every token but a closing bracket is taken for its beginning. -/
theorem Expects.step?_eq {place : Place} {outside : List Frame} (h : Expects place outside)
    {token : Token} (hclose : token ≠ .closeArray) :
    place.step? token = Place.startValue? outside token := by
  cases h with
  | value => rfl
  | firstItem =>
      cases token with
      | closeArray => exact absurd rfl hclose
      | null | bool | number | string | openArray | openObject | closeObject | colon | comma => rfl

/-- Where a name may come next, a text is taken for it. -/
theorem ExpectsName.step?_eq {place : Place} {members : List (Option String × Tree)}
    {outside : List Frame} (h : ExpectsName place members outside) (name : Option String) :
    place.step? (.string name) = some (.colon members name outside) := by
  cases h <;> rfl

/-- Reading a phrase takes the machine past it.  A list of elements or members is read together with
the bracket that ends it. -/
def Phrase.Passes : Phrase → List Char → Prop
  | .value tree, text | .element tree, text =>
    ∀ {place : Place} {outside : List Frame} {rest : List Char}, Expects place outside →
      EndsNumber rest → scan place (text ++ rest) = scan (Place.after tree outside) rest
  | .elements items, text =>
    ∀ {place : Place} {before : List Tree} {outside : List Frame} {rest : List Char},
      Expects place (.item before :: outside) →
      scan place (text ++ ']' :: rest) =
        scan (Place.after (.array (before.reverse ++ items)) outside) rest
  | .member name tree, text =>
    ∀ {place : Place} {before : List (Option String × Tree)} {outside : List Frame}
      {rest : List Char}, ExpectsName place before outside → EndsNumber rest →
      scan place (text ++ rest) = scan (.afterMember ((name, tree) :: before) outside) rest
  | .members entries, text =>
    ∀ {place : Place} {before : List (Option String × Tree)} {outside : List Frame}
      {rest : List Char}, ExpectsName place before outside →
      scan place (text ++ '}' :: rest) =
        scan (Place.after (.object (before.reverse ++ entries)) outside) rest

/-- No blank continues a numeral. -/
theorem EndsNumber.of_blank {blank rest : List Char} (hblank : Blank blank)
    (h : EndsNumber rest) : EndsNumber (blank ++ rest) := by
  refine head?_append_cases ?_ h
  intro c hc
  have hspace := hblank c (List.mem_of_mem_head? hc)
  simp only [List.mem_cons, List.not_mem_nil, or_false] at hspace
  rcases hspace with rfl | rfl | rfl | rfl <;> decide

/-- No comma or closing bracket continues a numeral. -/
theorem endsNumber_cons {c : Char} (h : c = ',' ∨ c = ']' ∨ c = '}') (rest : List Char) :
    EndsNumber (c :: rest) := by
  intro first hcase
  cases hcase
  rcases h with rfl | rfl | rfl <;> decide

/-- Completeness, phrase by phrase. -/
theorem Derives.passes {phrase : Phrase} {text : List Char} (h : Derives phrase text) :
    phrase.Passes text := by
  induction h with
  | null h | bool h | string h =>
      intro place outside rest hplace _
      exact scan_spelled h (by simp) (hplace.step?_eq (by simp))
  | number h =>
      intro place outside rest hplace hrest
      exact scan_spelled h (fun _ _ => hrest) (hplace.step?_eq (by simp))
  | @emptyArray blank hblank =>
      intro place outside rest hplace _
      calc scan place ('[' :: (blank ++ [']']) ++ rest)
          = scan place (['['] ++ (blank ++ ([']'] ++ rest))) := by simp
        _ = scan (.firstItem outside) (blank ++ ([']'] ++ rest)) :=
            scan_spelled .openArray (by simp) (hplace.step?_eq (by simp))
        _ = scan (.firstItem outside) ([']'] ++ rest) := scan_blank hblank _ _
        _ = scan (Place.after (.array []) outside) rest :=
            scan_spelled .closeArray (by simp) rfl
  | @array text items _ ih =>
      intro place outside rest hplace _
      calc scan place ('[' :: (text ++ [']']) ++ rest)
          = scan place (['['] ++ (text ++ ']' :: rest)) := by simp
        _ = scan (.firstItem outside) (text ++ ']' :: rest) :=
            scan_spelled .openArray (by simp) (hplace.step?_eq (by simp))
        _ = scan (Place.after (.array items) outside) rest := ih .firstItem
  | @emptyObject blank hblank =>
      intro place outside rest hplace _
      calc scan place ('{' :: (blank ++ ['}']) ++ rest)
          = scan place (['{'] ++ (blank ++ (['}'] ++ rest))) := by simp
        _ = scan (.firstName outside) (blank ++ (['}'] ++ rest)) :=
            scan_spelled .openObject (by simp) (hplace.step?_eq (by simp))
        _ = scan (.firstName outside) (['}'] ++ rest) := scan_blank hblank _ _
        _ = scan (Place.after (.object []) outside) rest :=
            scan_spelled .closeObject (by simp) rfl
  | @object text members _ ih =>
      intro place outside rest hplace _
      calc scan place ('{' :: (text ++ ['}']) ++ rest)
          = scan place (['{'] ++ (text ++ '}' :: rest)) := by simp
        _ = scan (.firstName outside) (text ++ '}' :: rest) :=
            scan_spelled .openObject (by simp) (hplace.step?_eq (by simp))
        _ = scan (Place.after (.object members) outside) rest := ih .firstName
  | @element before text after tree hbefore _ hafter ih =>
      intro place outside rest hplace hrest
      calc scan place (before ++ (text ++ after) ++ rest)
          = scan place (text ++ (after ++ rest)) := by
            rw [List.append_assoc, List.append_assoc, scan_blank hbefore]
        _ = scan (Place.after tree outside) (after ++ rest) := ih hplace (hrest.of_blank hafter)
        _ = scan (Place.after tree outside) rest := scan_blank hafter _ _
  | @lastElement text tree _ ih =>
      intro place before outside rest hplace
      calc scan place (text ++ ']' :: rest)
          = scan (.afterItem (tree :: before) outside) ([']'] ++ rest) :=
            ih hplace (endsNumber_cons (by simp) rest)
        _ = scan (Place.after (.array (tree :: before).reverse) outside) rest :=
            scan_spelled .closeArray (by simp) rfl
        _ = scan (Place.after (.array (before.reverse ++ [tree])) outside) rest := by
            rw [List.reverse_cons]
  | @elements text others tree items _ _ ih ihOthers =>
      intro place before outside rest hplace
      calc scan place (text ++ ',' :: others ++ ']' :: rest)
          = scan place (text ++ ([','] ++ (others ++ ']' :: rest))) := by simp
        _ = scan (.afterItem (tree :: before) outside) ([','] ++ (others ++ ']' :: rest)) :=
            ih hplace (endsNumber_cons (by simp) _)
        _ = scan (.value (.item (tree :: before) :: outside)) (others ++ ']' :: rest) :=
            scan_spelled .comma (by simp) rfl
        _ = scan (Place.after (.array ((tree :: before).reverse ++ items)) outside) rest :=
            ihOthers .value
        _ = scan (Place.after (.array (before.reverse ++ tree :: items)) outside) rest := by
            rw [List.reverse_cons, List.append_assoc, List.singleton_append]
  | @member before spelled after text name tree hbefore hname hafter _ ih =>
      intro place members outside rest hplace hrest
      calc scan place (before ++ (spelled ++ (after ++ ':' :: text)) ++ rest)
          = scan place (spelled ++ (after ++ ([':'] ++ (text ++ rest)))) := by
            rw [List.append_assoc, scan_blank hbefore]
            simp
        _ = scan (.colon members name outside) (after ++ ([':'] ++ (text ++ rest))) :=
            scan_spelled hname (by simp) (hplace.step?_eq name)
        _ = scan (.colon members name outside) ([':'] ++ (text ++ rest)) :=
            scan_blank hafter _ _
        _ = scan (.value (.member members name :: outside)) (text ++ rest) :=
            scan_spelled .colon (by simp) rfl
        _ = scan (.afterMember ((name, tree) :: members) outside) rest := ih .value hrest
  | @lastMember text name tree _ ih =>
      intro place before outside rest hplace
      calc scan place (text ++ '}' :: rest)
          = scan (.afterMember ((name, tree) :: before) outside) (['}'] ++ rest) :=
            ih hplace (endsNumber_cons (by simp) rest)
        _ = scan (Place.after (.object ((name, tree) :: before).reverse) outside) rest :=
            scan_spelled .closeObject (by simp) rfl
        _ = scan (Place.after (.object (before.reverse ++ [(name, tree)])) outside) rest := by
            rw [List.reverse_cons]
  | @members text others name tree members _ _ ih ihOthers =>
      intro place before outside rest hplace
      calc scan place (text ++ ',' :: others ++ '}' :: rest)
          = scan place (text ++ ([','] ++ (others ++ '}' :: rest))) := by simp
        _ = scan (.afterMember ((name, tree) :: before) outside)
              ([','] ++ (others ++ '}' :: rest)) :=
            ih hplace (endsNumber_cons (by simp) _)
        _ = scan (.nextName ((name, tree) :: before) outside) (others ++ '}' :: rest) :=
            scan_spelled .comma (by simp) rfl
        _ = scan (Place.after (.object (((name, tree) :: before).reverse ++ members)) outside)
              rest :=
            ihOthers .nextName
        _ = scan (Place.after (.object (before.reverse ++ (name, tree) :: members)) outside)
              rest := by
            rw [List.reverse_cons, List.append_assoc, List.singleton_append]

/-- The reader accepts exactly the texts of an element, and gives its tree. -/
theorem ofText?_eq_some_iff {text : String} {tree : Tree} :
    Tree.ofText? text = some tree ↔ Derives (.element tree) text.toList := by
  refine ⟨derives_of_ofText?, ?_⟩
  intro h
  have hscan : scan (.value []) (text.toList ++ []) = scan (.done tree) [] :=
    h.passes .value (by simp [EndsNumber])
  rw [List.append_nil, scan_nil] at hscan
  exact ofText?_eq_some_iff_scan.mpr hscan

end RoutePriority.Json
