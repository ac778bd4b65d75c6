import RoutePriority.CommandLine.Run
import RoutePriority.Proofs.ProfileRoundTrip
import RoutePriority.Proofs.RecordWrites
import RoutePriority.Proofs.Registrations

/-!
# Assignments of the command line

The edge that is rated on the command line is described by texts, `NAME=VALUE` or
`NAME=FORWARD/BACKWARD`.  `Assigns` says on the characters of such a text which attribute gets which
values, `Faulty` says what is wrong with the others, and `reports_assign` that the text alone
decides: what the record holds does not matter.

Assignments are carried out on one record in place, by the programs of `Assigning`.  An assignment
stores the values that its text gives or leaves the record as it was (`CarriesOut`), so after a run
every attribute has the values of its latest assignment (`HoldsLatest`).
-/

namespace RoutePriority

namespace CommandLine

/-! ## Parts of a text -/

/-- The text is cut in two at the first occurrence of a character. -/
structure CutAt (separator : Char) (text before after : List Char) : Prop where
  text_eq : text = before ++ separator :: after
  notMem : separator ∉ before

section Parts

variable {separator : Char} {text before after : List Char}

theorem splitAtFirst?_cons (c : Char) :
    splitAtFirst? separator (c :: text) =
      if c = separator then some ([], text)
      else (splitAtFirst? separator text).map fun parts => (c :: parts.1, parts.2) := by
  by_cases h : c = separator
  · simp [splitAtFirst?, h]
  · unfold splitAtFirst?
    rw [if_neg h, List.dropWhile_cons_of_pos (by simpa using h),
      List.takeWhile_cons_of_pos (by simpa using h)]
    cases text.dropWhile (· ≠ separator) <;> rfl

/-- Only a text without the separator is not cut. -/
theorem splitAtFirst?_eq_none_iff : splitAtFirst? separator text = none ↔ separator ∉ text := by
  induction text with
  | nil => simp [splitAtFirst?]
  | cons c rest ih =>
      rw [splitAtFirst?_cons]
      by_cases h : c = separator
      · simp [h]
      · simp [h, ih, Ne.symm h]

/-- A text is cut at the first separator. -/
theorem splitAtFirst?_eq_some_iff :
    splitAtFirst? separator text = some (before, after) ↔ CutAt separator text before after := by
  induction text generalizing before with
  | nil =>
      constructor
      · intro h
        cases h
      · intro h
        simpa using h.text_eq
  | cons c rest ih =>
      rw [splitAtFirst?_cons]
      by_cases h : c = separator
      · rw [if_pos h]
        constructor
        · intro hparts
          cases hparts
          exact ⟨by rw [h]; rfl, by simp⟩
        · intro hcut
          obtain ⟨htext, hnotMem⟩ := hcut
          cases before with
          | nil =>
              obtain ⟨-, rfl⟩ := List.cons.inj htext
              rfl
          | cons first others =>
              obtain ⟨rfl, -⟩ := List.cons.inj htext
              exact absurd (h ▸ List.mem_cons_self) hnotMem
      · rw [if_neg h, Option.map_eq_some_iff]
        constructor
        · intro hparts
          obtain ⟨⟨others, last⟩, hothers, hsame⟩ := hparts
          cases hsame
          obtain ⟨rfl, hnotMem⟩ := ih.mp hothers
          exact ⟨rfl, by simp [hnotMem, Ne.symm h]⟩
        · intro hcut
          obtain ⟨htext, hnotMem⟩ := hcut
          cases before with
          | nil => exact absurd (List.cons.inj htext).1 h
          | cons first others =>
              obtain ⟨rfl, hrest⟩ := List.cons.inj htext
              refine ⟨(others, after), ih.mpr ⟨hrest, ?_⟩, rfl⟩
              exact fun hmem => hnotMem (List.mem_cons_of_mem _ hmem)

end Parts

/-! ## What an assignment says -/

/-- The name of an attribute stands before the first equals sign of the text, between blanks, and
`value` is what stands after it. -/
structure Addresses (registry : Registry) (assignment : String) (handle : Handle)
    (value : List Char) : Prop where
  mem_handles : handle ∈ registry.handles
  exists_cut : ∃ name, CutAt '=' assignment.toList name value ∧
    handle.name = textBetweenBlanks name

/-- The assignment gives an attribute a pair of values: one value for both directions, or one for
each direction of a directional attribute, with a slash between them. -/
inductive Assigns (registry : Registry) (assignment : String) : Handle → DirectedValue → Prop
  | both {handle : Handle} {value : List Char} {stored : AttributeValue}
      (hname : Addresses registry assignment handle value) (hplain : '/' ∉ value)
      (hvalue : handle.parse? (textBetweenBlanks value) = some stored) :
      Assigns registry assignment handle (.both stored)
  | directional {handle : Handle} {value forward backward : List Char}
      {first second : AttributeValue} (hname : Addresses registry assignment handle value)
      (hcut : CutAt '/' value forward backward) (hdirectional : handle.directional = true)
      (hforward : handle.parse? (textBetweenBlanks forward) = some first)
      (hbackward : handle.parse? (textBetweenBlanks backward) = some second) :
      Assigns registry assignment handle ⟨first, second⟩

/-- The assignment gives some attribute its values. -/
def Accepted (registry : Registry) (assignment : String) : Prop :=
  ∃ handle pair, Assigns registry assignment handle pair

/-- What is wrong with an assignment, the first fault if there are several.  That an attribute is
not directional is noticed after both of its values are read. -/
inductive Faulty (registry : Registry) (assignment : String) : AssignmentError → Prop
  | noValue (h : '=' ∉ assignment.toList) : Faulty registry assignment (.noValue assignment)
  | unknownAttribute {name value : List Char} (hcut : CutAt '=' assignment.toList name value)
      (hname : textBetweenBlanks name ∉ registry.definitions.map Definition.name) :
      Faulty registry assignment (.unknownAttribute (textBetweenBlanks name))
  | unknownValue {handle : Handle} {value : List Char}
      (hname : Addresses registry assignment handle value) (hplain : '/' ∉ value)
      (hvalue : handle.parse? (textBetweenBlanks value) = none) :
      Faulty registry assignment
        (.refused (.unknownValue handle.name (textBetweenBlanks value)))
  | unknownForward {handle : Handle} {value forward backward : List Char}
      (hname : Addresses registry assignment handle value) (hcut : CutAt '/' value forward backward)
      (hforward : handle.parse? (textBetweenBlanks forward) = none) :
      Faulty registry assignment
        (.refused (.unknownValue handle.name (textBetweenBlanks forward)))
  | unknownBackward {handle : Handle} {value forward backward : List Char} {first : AttributeValue}
      (hname : Addresses registry assignment handle value) (hcut : CutAt '/' value forward backward)
      (hforward : handle.parse? (textBetweenBlanks forward) = some first)
      (hbackward : handle.parse? (textBetweenBlanks backward) = none) :
      Faulty registry assignment
        (.refused (.unknownValue handle.name (textBetweenBlanks backward)))
  | notDirectional {handle : Handle} {value forward backward : List Char}
      {first second : AttributeValue} (hname : Addresses registry assignment handle value)
      (hcut : CutAt '/' value forward backward)
      (hforward : handle.parse? (textBetweenBlanks forward) = some first)
      (hbackward : handle.parse? (textBetweenBlanks backward) = some second)
      (hplain : handle.directional = false) :
      Faulty registry assignment (.refused (.notDirectional handle.name))

/-- The call that an assignment makes through the attribute of its name. -/
def callOf (registry : Registry) (assignment : String) : Except AssignmentError Write :=
  match splitAtFirst? '=' assignment.toList with
  | none => .error (.noValue assignment)
  | some (name, value) =>
    match registry.resolve? (textBetweenBlanks name) with
    | none => .error (.unknownAttribute (textBetweenBlanks name))
    | some handle =>
      match splitAtFirst? '/' value with
      | some (forward, backward) =>
        .ok (.setTextDirectional handle (textBetweenBlanks forward) (textBetweenBlanks backward))
      | none => .ok (.setText handle (textBetweenBlanks value))

section Assign

variable {registry : Registry} {record : EdgeRecord} {assignment : String} {handle : Handle}
  {pair : DirectedValue} {value forward backward : List Char}

/-- An assignment makes its call, if it has one. -/
theorem assign_eq_bind (registry : Registry) (record : EdgeRecord) (assignment : String) :
    assign registry record assignment =
      (callOf registry assignment).bind fun write => (write.apply record).mapError .refused := by
  unfold assign callOf
  cases splitAtFirst? '=' assignment.toList with
  | none => rfl
  | some parts =>
      obtain ⟨name, value⟩ := parts
      dsimp only
      cases registry.resolve? (textBetweenBlanks name) with
      | none => rfl
      | some handle =>
          dsimp only
          cases splitAtFirst? '/' value <;> rfl

/-- A value without a slash is for both directions. -/
theorem callOf_of_plain (h : Addresses registry assignment handle value) (hplain : '/' ∉ value) :
    callOf registry assignment = .ok (.setText handle (textBetweenBlanks value)) := by
  obtain ⟨hmem, name, hcut, hname⟩ := h
  simp only [callOf, splitAtFirst?_eq_some_iff.mpr hcut,
    Registry.resolve?_eq_some_iff.mpr ⟨hmem, hname⟩, splitAtFirst?_eq_none_iff.mpr hplain]

/-- A value with a slash is two values, one for each direction. -/
theorem callOf_of_cut (h : Addresses registry assignment handle value)
    (hslash : CutAt '/' value forward backward) :
    callOf registry assignment = .ok
      (.setTextDirectional handle (textBetweenBlanks forward) (textBetweenBlanks backward)) := by
  obtain ⟨hmem, name, hcut, hname⟩ := h
  simp only [callOf, splitAtFirst?_eq_some_iff.mpr hcut,
    Registry.resolve?_eq_some_iff.mpr ⟨hmem, hname⟩, splitAtFirst?_eq_some_iff.mpr hslash]

/-- An assignment that gives an attribute its values makes a call that is granted them. -/
theorem Assigns.exists_call (h : Assigns registry assignment handle pair) :
    handle ∈ registry.handles ∧ ∃ write, callOf registry assignment = .ok write ∧
      write.handle = handle ∧ write.Grants pair := by
  cases h with
  | both hname hplain hvalue =>
      exact ⟨hname.mem_handles, _, callOf_of_plain hname hplain, rfl, .setText hvalue⟩
  | directional hname hcut hdirectional hforward hbackward =>
      exact ⟨hname.mem_handles, _, callOf_of_cut hname hcut, rfl,
        .setTextDirectional hdirectional hforward hbackward⟩

/-- A text gives values to one attribute, and to it one pair of values. -/
theorem Assigns.unique {other : Handle} {others : DirectedValue}
    (h : Assigns registry assignment handle pair) (h' : Assigns registry assignment other others) :
    handle = other ∧ pair = others := by
  obtain ⟨-, write, hcall, rfl, hgrants⟩ := h.exists_call
  obtain ⟨-, again, hagain, rfl, hgrants'⟩ := h'.exists_call
  cases hcall.symm.trans hagain
  exact ⟨rfl, hgrants.unique hgrants'⟩

/-- An assignment that gives an attribute its values stores them in its slot. -/
theorem assign_of_assigns (h : Assigns registry assignment handle pair)
    (hslots : record.slots.length = registry.handles.length) :
    assign registry record assignment = .ok (record.put handle.slot pair) := by
  obtain ⟨hmem, write, hcall, rfl, hgrants⟩ := h.exists_call
  have hslot : write.handle.slot < record.slots.length := by
    rw [hslots]
    exact Registry.slot_lt_of_mem hmem
  have happly := (Write.apply_eq_ok_iff (Registry.wellFormed_of_mem hmem)).mpr
    ⟨pair, hgrants, hslot, rfl⟩
  rw [assign_eq_bind, hcall]
  change (write.apply record).mapError _ = _
  rw [happly]
  rfl

/-- The values of an assignment that names an attribute are stored or at fault. -/
theorem accepted_or_faulty_of_addresses (hname : Addresses registry assignment handle value) :
    Accepted registry assignment ∨ ∃ error, Faulty registry assignment error := by
  cases hslash : splitAtFirst? '/' value with
  | none =>
      have hplain := splitAtFirst?_eq_none_iff.mp hslash
      cases hvalue : handle.parse? (textBetweenBlanks value) with
      | none => exact Or.inr ⟨_, .unknownValue hname hplain hvalue⟩
      | some stored => exact Or.inl ⟨_, _, .both hname hplain hvalue⟩
  | some parts =>
      obtain ⟨forward, backward⟩ := parts
      have hcut := splitAtFirst?_eq_some_iff.mp hslash
      cases hforward : handle.parse? (textBetweenBlanks forward) with
      | none => exact Or.inr ⟨_, .unknownForward hname hcut hforward⟩
      | some first =>
          cases hbackward : handle.parse? (textBetweenBlanks backward) with
          | none => exact Or.inr ⟨_, .unknownBackward hname hcut hforward hbackward⟩
          | some second =>
              cases hdirectional : handle.directional with
              | false =>
                  exact Or.inr ⟨_, .notDirectional hname hcut hforward hbackward hdirectional⟩
              | true =>
                  exact Or.inl ⟨_, _, .directional hname hcut hdirectional hforward hbackward⟩

/-- A call that is refused for its texts is refused by every record. -/
theorem assign_of_error {write : Write} {error : AttributeError}
    (hcall : callOf registry assignment = .ok write) (h : write.apply record = .error error) :
    assign registry record assignment = .error (.refused error) := by
  rw [assign_eq_bind, hcall]
  change (write.apply record).mapError _ = _
  rw [h]
  rfl

/-- A faulty assignment gives its error. -/
theorem assign_of_faulty {error : AssignmentError} (h : Faulty registry assignment error) :
    assign registry record assignment = .error error := by
  cases h with
  | noValue h =>
      rw [assign_eq_bind]
      simp only [callOf, splitAtFirst?_eq_none_iff.mpr h]
      rfl
  | unknownAttribute hcut hname =>
      rw [assign_eq_bind]
      simp only [callOf, splitAtFirst?_eq_some_iff.mpr hcut,
        Registry.resolve?_eq_none_iff.mpr hname]
      rfl
  | unknownValue hname hplain hvalue =>
      refine assign_of_error (callOf_of_plain hname hplain) ?_
      simp only [Write.apply, EdgeRecord.setText, Handle.parse, hvalue]
      rfl
  | unknownForward hname hcut hforward =>
      refine assign_of_error (callOf_of_cut hname hcut) ?_
      simp only [Write.apply, EdgeRecord.setTextDirectional, Handle.parse, hforward]
      rfl
  | unknownBackward hname hcut hforward hbackward =>
      refine assign_of_error (callOf_of_cut hname hcut) ?_
      simp only [Write.apply, EdgeRecord.setTextDirectional, Handle.parse, hforward, hbackward]
      rfl
  | notDirectional hname hcut hforward hbackward hplain =>
      refine assign_of_error (callOf_of_cut hname hcut) ?_
      simp only [Write.apply, EdgeRecord.setTextDirectional, Handle.parse, hforward, hbackward,
        EdgeRecord.setDirectional, hplain]
      rfl

/-- Every text is an accepted assignment or has a fault. -/
theorem accepted_or_faulty (registry : Registry) (assignment : String) :
    Accepted registry assignment ∨ ∃ error, Faulty registry assignment error := by
  cases hequals : splitAtFirst? '=' assignment.toList with
  | none => exact Or.inr ⟨_, .noValue (splitAtFirst?_eq_none_iff.mp hequals)⟩
  | some parts =>
      obtain ⟨name, value⟩ := parts
      have hcut := splitAtFirst?_eq_some_iff.mp hequals
      cases hresolve : registry.resolve? (textBetweenBlanks name) with
      | none => exact Or.inr ⟨_, .unknownAttribute hcut (Registry.resolve?_eq_none_iff.mp hresolve)⟩
      | some handle =>
          obtain ⟨hmem, hname⟩ := Registry.resolve?_eq_some_iff.mp hresolve
          exact accepted_or_faulty_of_addresses ⟨hmem, name, hcut, hname⟩

/-- The text of an assignment decides whether it is carried out and what is wrong with it. -/
theorem reports_assign (hslots : record.slots.length = registry.handles.length)
    (assignment : String) :
    Reports (assign registry record assignment) (Accepted registry assignment)
      (Faulty registry assignment) := by
  refine Reports.of_cases (fun haccepted => ?_) (fun error hfaulty => assign_of_faulty hfaulty)
    (accepted_or_faulty registry assignment)
  obtain ⟨handle, pair, hassigns⟩ := haccepted
  exact ⟨_, assign_of_assigns hassigns hslots⟩

end Assign

/-! ## One record -/

/-- A program that carries out assignments on a record in place.  It leaves a record behind also
where it fails. -/
abbrev Assigning := ExceptT AssignmentError (StateM EdgeRecord)

namespace Assigning

/-- The answer of a program on a record, and the record that it leaves behind. -/
def runOn (program : Assigning Unit) (record : EdgeRecord) :
    Except AssignmentError Unit × EdgeRecord :=
  program.run.run record

/-- Finds the call of an assignment and makes it. -/
def perform (registry : Registry) (assignment : String) : Assigning Unit := do
  let write ← ofExcept (callOf registry assignment)
  ExceptT.adapt .refused write.program

/-- Carries out one assignment after the other; the first that fails ends it. -/
def performAll (registry : Registry) : List String → Assigning Unit
  | [] => return
  | assignment :: rest => do
    perform registry assignment
    performAll registry rest

variable {registry : Registry} {record : EdgeRecord} {assignment : String}

/-- An assignment that fails ends the run. -/
theorem runOn_bind (program next : Assigning Unit) (record : EdgeRecord) :
    runOn (do program; next) record =
      match program.runOn record with
      | (.ok _, changed) => next.runOn changed
      | (.error error, changed) => (.error error, changed) := by
  change (match program.runOn record with
    | (answer, changed) => StateT.run (ExceptT.bindCont (fun _ => next) answer) changed) = _
  obtain ⟨answer | answer, changed⟩ := program.runOn record <;> rfl

theorem runOn_adapt (write : Write) (record : EdgeRecord) :
    runOn (ExceptT.adapt .refused write.program) record =
      ((write.program.runOn record).1.mapError .refused, (write.program.runOn record).2) :=
  rfl

/-- An assignment in place leaves behind the record that `assign` makes, or the old one if it
fails. -/
theorem runOn_perform (registry : Registry) (assignment : String) (record : EdgeRecord) :
    (perform registry assignment).runOn record =
      match assign registry record assignment with
      | .ok next => (.ok (), next)
      | .error error => (.error error, record) := by
  rw [assign_eq_bind, perform]
  cases callOf registry assignment with
  | error error => rfl
  | ok write =>
      change runOn (ExceptT.adapt .refused write.program) record =
        match (write.apply record).mapError AssignmentError.refused with
        | .ok next => (.ok (), next)
        | .error error => (.error error, record)
      rw [runOn_adapt, Write.runOn_program]
      cases write.apply record <;> rfl

/-- A run of assignments in place goes as the assignments one after the other do. -/
theorem runOn_performAll (registry : Registry) (assignments : List String) (record : EdgeRecord) :
    ∃ last, (performAll registry assignments).runOn record =
        ((assignments.foldlM (assign registry) record).map fun _ => (), last) ∧
      ∀ next, assignments.foldlM (assign registry) record = .ok next → last = next := by
  induction assignments generalizing record with
  | nil => exact ⟨record, rfl, fun next hnext => by cases hnext; rfl⟩
  | cons assignment rest ih =>
      rw [performAll, runOn_bind, runOn_perform, List.foldlM_cons]
      cases assign registry record assignment with
      | error error => exact ⟨record, rfl, fun next hnext => by cases hnext⟩
      | ok changed => exact ih changed

end Assigning

/-- What an assignment does to a record in place.  It succeeds if its text gives an attribute its
values; then this attribute reads as them and every other one as before.  Otherwise it answers what
is wrong with the text, and the record stays as it was. -/
structure CarriesOut (registry : Registry) (record : EdgeRecord) (assignment : String) : Prop where
  reports : Reports ((Assigning.perform registry assignment).runOn record).1
    (Accepted registry assignment) (Faulty registry assignment)
  stores : ∀ handle pair, Assigns registry assignment handle pair → ∀ direction,
    ((Assigning.perform registry assignment).runOn record).2.get handle direction =
      pair.get direction
  frames : ∀ handle pair, Assigns registry assignment handle pair →
    ∀ other ∈ registry.handles, other ≠ handle → ∀ direction,
      ((Assigning.perform registry assignment).runOn record).2.get other direction =
        record.get other direction
  keeps : ∀ error next,
    (Assigning.perform registry assignment).runOn record = (.error error, next) → next = record

/-- One assignment changes just the value it assigns, or fails and changes nothing. -/
theorem carriesOut {registry : Registry} {record : EdgeRecord}
    (hslots : record.slots.length = registry.handles.length) (assignment : String) :
    CarriesOut registry record assignment where
  reports := by
    have hanswer : ((Assigning.perform registry assignment).runOn record).1 =
        (assign registry record assignment).map fun _ => () := by
      rw [Assigning.runOn_perform]
      cases assign registry record assignment <;> rfl
    rw [hanswer]
    exact (reports_assign hslots assignment).map _
  stores := by
    intro handle pair h direction
    have hslot := Registry.slot_lt_of_mem h.exists_call.1
    rw [← hslots] at hslot
    rw [Assigning.runOn_perform, assign_of_assigns h hslots]
    exact EdgeRecord.get_put_self pair hslot direction
  frames := by
    intro handle pair h other hother hne direction
    rw [Assigning.runOn_perform, assign_of_assigns h hslots]
    refine EdgeRecord.get_put_of_ne pair (fun hsame => hne ?_) direction
    exact Registry.eq_of_slot_eq hother h.exists_call.1 hsame
  keeps := by
    intro error next h
    rw [Assigning.runOn_perform] at h
    cases hassign : assign registry record assignment with
    | ok changed => simp [hassign] at h
    | error found =>
        rw [hassign] at h
        exact (congrArg Prod.snd h).symm

/-! ## Runs of assignments -/

/-- The values are those of the latest assignment to the attribute. -/
def LatestAssigned (registry : Registry) (assignments : List String) (handle : Handle)
    (pair : DirectedValue) : Prop :=
  ∃ before assignment after, assignments = before ++ assignment :: after ∧
    Assigns registry assignment handle pair ∧
    ∀ later ∈ after, ∀ other, ¬ Assigns registry later handle other

/-- The record has for every attribute the values of its latest assignment, and what the record
before had where there is none. -/
structure HoldsLatest (registry : Registry) (assignments : List String)
    (before after : EdgeRecord) : Prop where
  assigned : ∀ handle pair, LatestAssigned registry assignments handle pair → ∀ direction,
    after.get handle direction = pair.get direction
  untouched : ∀ handle ∈ registry.handles,
    (∀ assignment ∈ assignments, ∀ pair, ¬ Assigns registry assignment handle pair) →
      ∀ direction, after.get handle direction = before.get handle direction

section Runs

variable {registry : Registry} {record next : EdgeRecord} {assignment : String}
  {rest assignments : List String} {handle : Handle} {pair : DirectedValue}

/-- The rest of a run decides, and where it assigns nothing the first assignment does. -/
theorem latestAssigned_cons :
    LatestAssigned registry (assignment :: rest) handle pair ↔
      LatestAssigned registry rest handle pair ∨
        Assigns registry assignment handle pair ∧
          ∀ later ∈ rest, ∀ other, ¬ Assigns registry later handle other := by
  constructor
  · intro h
    obtain ⟨before, latest, after, hsplit, hassigns, hafter⟩ := h
    cases before with
    | nil =>
        obtain ⟨rfl, rfl⟩ := List.cons.inj hsplit
        exact Or.inr ⟨hassigns, hafter⟩
    | cons first before =>
        obtain ⟨-, rfl⟩ := List.cons.inj hsplit
        exact Or.inl ⟨before, latest, after, rfl, hassigns, hafter⟩
  · intro h
    rcases h with h | ⟨hassigns, hrest⟩
    · obtain ⟨before, latest, after, rfl, hassigns, hafter⟩ := h
      exact ⟨assignment :: before, latest, after, rfl, hassigns, hafter⟩
    · exact ⟨[], assignment, rest, rfl, hassigns, hrest⟩

/-- An assignment that succeeded stored the values that its text gives. -/
theorem exists_assigns_of_assign (hslots : record.slots.length = registry.handles.length)
    (h : assign registry record assignment = .ok next) :
    ∃ handle pair, Assigns registry assignment handle pair ∧
      next = record.put handle.slot pair := by
  obtain ⟨handle, pair, hassigns⟩ := (reports_assign hslots assignment).ok_iff.mp ⟨next, h⟩
  rw [assign_of_assigns hassigns hslots] at h
  exact ⟨handle, pair, hassigns, (Except.ok.inj h).symm⟩

/-- An assignment keeps the number of slots. -/
theorem length_assign (hslots : record.slots.length = registry.handles.length)
    (h : assign registry record assignment = .ok next) :
    next.slots.length = registry.handles.length := by
  obtain ⟨handle, pair, -, rfl⟩ := exists_assigns_of_assign hslots h
  rw [EdgeRecord.length_put, hslots]

/-- A run of assignments reports the first one that cannot be carried out; no assignment changes
which ones can. -/
theorem reports_assignAll (hslots : record.slots.length = registry.handles.length)
    (assignments : List String) :
    Reports (assignments.foldlM (assign registry) record)
      (∀ assignment ∈ assignments, Accepted registry assignment)
      (FirstViolation (Accepted registry) (Faulty registry) assignments) := by
  have hreports : Reports (assignments.foldlM (assign registry) record)
      (ValidInOrder (fun (_ : Unit) _ => ()) (fun _ => Accepted registry) () assignments)
      (FirstViolation (Accepted registry) (Faulty registry) assignments) :=
    Reports.foldlM (fun _ => ()) (fun _ assignment hsound => reports_assign hsound assignment)
      (fun _ _ _ hsound hnext => ⟨length_assign hsound hnext, rfl⟩) hslots assignments
  exact ⟨hreports.ok_iff.trans validInOrder_iff_forall_mem, hreports.error_iff⟩

/-- After a run of assignments the latest one of each attribute counts.  By induction on the run:
the rest of it decides, and where it assigns nothing the first assignment does. -/
theorem holdsLatest_of_assignAll (hslots : record.slots.length = registry.handles.length)
    (h : assignments.foldlM (assign registry) record = .ok next) :
    HoldsLatest registry assignments record next := by
  induction assignments generalizing record with
  | nil =>
      cases h
      refine ⟨fun handle pair hlatest => ?_, fun _ _ _ _ => rfl⟩
      obtain ⟨before, assignment, after, hsplit, -⟩ := hlatest
      simp at hsplit
  | cons assignment rest ih =>
      obtain ⟨changed, hassign, hrest⟩ := foldlM_cons_eq_ok_iff.mp h
      obtain ⟨stored, values, hassigns, rfl⟩ := exists_assigns_of_assign hslots hassign
      have hslot := Registry.slot_lt_of_mem hassigns.exists_call.1
      rw [← hslots] at hslot
      have hlatest := ih (length_assign hslots hassign) hrest
      constructor
      · intro handle pair h direction
        rcases latestAssigned_cons.mp h with h | ⟨hhandle, hlater⟩
        · exact hlatest.assigned handle pair h direction
        · obtain ⟨rfl, rfl⟩ := hassigns.unique hhandle
          rw [hlatest.untouched _ hassigns.exists_call.1 hlater,
            EdgeRecord.get_put_self values hslot]
      · intro handle hhandle hnone direction
        obtain ⟨hfirst, hothers⟩ := List.forall_mem_cons.mp hnone
        have hne : handle.slot ≠ stored.slot := by
          intro hsame
          obtain rfl := Registry.eq_of_slot_eq hhandle hassigns.exists_call.1 hsame
          exact hfirst values hassigns
        rw [hlatest.untouched handle hhandle hothers, EdgeRecord.get_put_of_ne values hne]

end Runs

/-! ## Rating the edge of a run -/

/-- What is printed of the two priorities of an edge: the one that is asked for on a line of its
own, or both after the name of the profile. -/
def printedRates (name : String) (forward backward : Binary64) : DirectionChoice → String
  | .forward => Layout.plain.text forward ++ "\n"
  | .backward => Layout.plain.text backward ++ "\n"
  | .both =>
    ("profile:  " ++ name ++ "\n") ++ ("forward:  " ++ Layout.plain.text forward ++ "\n") ++
      ("backward: " ++ Layout.plain.text backward ++ "\n")

/-- The report prints the priorities of the edge in its two directions. -/
theorem evalReport_eq (profile : Profile) (model : Model) (edge : EdgeStore)
    (choice : DirectionChoice) :
    evalReport profile model edge choice =
      printedRates profile.name (model.evaluate edge .forward) (model.evaluate edge .backward)
        choice := by
  cases choice <;>
    simp only [evalReport, Model.evaluateBoth, lines, printedRates, List.map_cons, List.map_nil,
      String.join, List.foldl_cons, List.foldl_nil, String.empty_append]

/-- The answer to a request to rate an edge by a profile that loaded.  Either every assignment of
the run gives its values, and the two priorities of the record that the run makes are printed, or
the fault of the first one that does not is. -/
structure RatesAssigned (registry : Registry) (assignments : List String)
    (choice : DirectionChoice) (loaded : Loaded) (log : List LogEvent) (answer : Answer) :
    Prop where
  code_eq_zero_iff :
    answer.code = 0 ↔ ∀ assignment ∈ assignments, Accepted registry assignment
  rates : (∀ assignment ∈ assignments, Accepted registry assignment) →
    ∃ edge, (Assigning.performAll registry assignments).runOn (EdgeRecord.new registry) =
        (.ok (), edge) ∧
      HoldsLatest registry assignments (EdgeRecord.new registry) edge ∧
      answer = ⟨0, printedRates loaded.profile.name (loaded.model.evaluateBoth edge.store).1
        (loaded.model.evaluateBoth edge.store).2 choice, "", log⟩
  refuses : (¬ ∀ assignment ∈ assignments, Accepted registry assignment) →
    ∃ error, FirstViolation (Accepted registry) (Faulty registry) assignments error ∧
      ((Assigning.performAll registry assignments).runOn (EdgeRecord.new registry)).1 =
        .error error ∧
      answer = ⟨1, "", "Error: " ++ error.message, log⟩

section Eval

variable {registry : Registry} {assignments : List String} {choice : DirectionChoice}
  {files : Files Id} {name directory : String} {loaded : Loaded} {log : List LogEvent}

/-- A profile whose file is found and read loads if it compiles. -/
theorem run_loadModel {path : String} {profile : Profile}
    (hlocate : (Profile.locate files name directory).run = .ok path)
    (hload : (Profile.load files path).run = .ok profile) :
    (loadModel files registry name directory).run =
      ⟨((Model.compile profile.rules registry).map fun model => ⟨profile, model⟩).mapError .compile,
        .profileLoaded path profile.name :: (Compilation.run profile.rules registry).log⟩ := by
  have hpath : Profile.locate files name directory = pure (.ok path) := hlocate
  have hprofile : Profile.load files path = pure (.ok profile) := hload
  rw [loadModel, hpath, pure_bind]
  dsimp only
  rw [hprofile, pure_bind]
  dsimp only
  rw [Model.compile]
  cases (Compilation.run profile.rules registry).result <;> rfl

/-- With a profile that loaded, the assignments decide the answer. -/
theorem run_eval_of_loadModel
    (h : (loadModel files registry name directory).run = ⟨.ok loaded, log⟩) :
    ((Command.eval name assignments choice).run files registry directory).run =
      match edgeOf registry assignments with
      | .error error => .failure error.message log
      | .ok record =>
        .success (evalReport loaded.profile loaded.model record.store choice) log := by
  have hload : loadModel files registry name directory = pure ⟨.ok loaded, log⟩ := h
  rw [Command.run, hload, pure_bind]
  dsimp only
  cases edgeOf registry assignments <;> rfl

/-- With a loaded profile the command assigns, rates and prints, or fails with the first fault. -/
theorem ratesAssigned_of_loadModel
    (h : (loadModel files registry name directory).run = ⟨.ok loaded, log⟩) :
    RatesAssigned registry assignments choice loaded log
      ((Command.eval name assignments choice).run files registry directory).run := by
  have hslots : (EdgeRecord.new registry).slots.length = registry.handles.length :=
    EdgeRecord.length_new registry
  have hreports := reports_assignAll hslots assignments
  obtain ⟨last, hrun, hlast⟩ :=
    Assigning.runOn_performAll registry assignments (EdgeRecord.new registry)
  rw [run_eval_of_loadModel h, edgeOf]
  cases hall : assignments.foldlM (assign registry) (EdgeRecord.new registry) with
  | ok record =>
      have haccepted := hreports.ok_iff.mp ⟨record, hall⟩
      obtain rfl := hlast record hall
      rw [hall] at hrun
      exact ⟨iff_of_true rfl haccepted,
        fun _ => ⟨last, hrun, holdsLatest_of_assignAll hslots hall,
          congrArg (Answer.success · log)
            (evalReport_eq loaded.profile loaded.model last.store choice)⟩,
        fun hfails => absurd haccepted hfails⟩
  | error error =>
      have hrefused : ¬ ∀ assignment ∈ assignments, Accepted registry assignment := by
        rw [← hreports.ok_iff, hall]
        simp
      rw [hall] at hrun
      exact ⟨iff_of_false (by simp [Answer.failure]) hrefused,
        fun haccepted => absurd haccepted hrefused,
        fun _ => ⟨error, (hreports.error_iff error).mp hall, by rw [hrun]; rfl, rfl⟩⟩

/-- An assignment is carried out as its text says, on every record of the registry, or changes
nothing.  A request to rate an edge by a profile that can be found, read and compiled is answered
with the priorities of a fresh record after all assignments, the latest one of each attribute
counting, or with the fault of the first assignment that cannot be carried out. -/
theorem eval_rates_assigned_edge (registry : Registry) :
    (∀ record : EdgeRecord, record.slots.length = registry.handles.length →
      ∀ assignment, CarriesOut registry record assignment) ∧
    ∀ (files : Files Id) (name directory : String) (assignments : List String)
      (choice : DirectionChoice) (loaded : Loaded) (log : List LogEvent),
      (loadModel files registry name directory).run = ⟨.ok loaded, log⟩ →
        RatesAssigned registry assignments choice loaded log
          ((Command.eval name assignments choice).run files registry directory).run :=
  ⟨fun _ hslots assignment => carriesOut hslots assignment,
    fun _ _ _ _ _ _ _ h => ratesAssigned_of_loadModel h⟩

/-- A road that is fast in one direction, by a profile against slow roads: the second speed counts.
A surface that is none is refused before the text after it is looked at. -/
theorem eval_rates_assigned_edge_slow :
    let speed : Handle := ⟨5, (Definition.continuous "max_speed").withDirections⟩
    let profile : Profile :=
      ⟨"slow", ⟨[("max_speed", ⟨[("<60", .text "0")], by decide⟩)], by decide⟩⟩
    let files : Files Id :=
      { isFile := fun path => decide (path = "slow.json")
        text? := fun path => if path = "slow.json" then some profile.jsonText else none }
    let model : Model :=
      ⟨[⟨speed, [⟨.relational .less (.ofInt 60), .compare .less (.ofInt 60), .zero⟩]⟩]⟩
    let log : List LogEvent := [.profileLoaded "slow.json" "slow",
      .tableCompiled "max_speed" .continuous 1, .modelCompiled 1 1]
    let rate (assignments : List String) : Answer :=
      ((Command.eval "slow.json" assignments .both).run files Road.registry "").run
    let fast := ["max_speed = 50", "max_speed=110/ 50"]
    let muddy := ["max_speed=110/50", "surface=MUD", "nonsense"]
    (loadModel files Road.registry "slow.json" "").run = ⟨.ok ⟨profile, model⟩, log⟩ ∧
      CarriesOut Road.registry (EdgeRecord.new Road.registry) "max_speed=110/ 50" ∧
      RatesAssigned Road.registry fast .both ⟨profile, model⟩ log (rate fast) ∧
      rate fast = ⟨0, "profile:  slow\nforward:  1\nbackward: 0\n", "", log⟩ ∧
      RatesAssigned Road.registry muddy .both ⟨profile, model⟩ log (rate muddy) ∧
      rate muddy = ⟨1, "", "Error: 'MUD' is not a valid value of attribute 'surface'", log⟩ := by
  intro speed profile files model log rate fast muddy
  have hread : Profile.ofJsonText? profile.jsonText = some profile := by
    have hreals : profile.toJson.RestoresReals := Json.restoresReals_of_numbers_eq_nil rfl
    rw [Profile.ofJsonText?, Json.Tree.read?, Profile.jsonText,
      Json.ofText?_eq_some_tree_iff.mpr (Json.writtenIn_text hreals), Option.bind_some]
    apply Profile.ofTree?_toJson
    · intro table htable rule hrule
      obtain rfl := List.mem_singleton.mp htable
      obtain rfl := List.mem_singleton.mp hrule
      trivial
    · decide
  have hload : (Profile.load files "slow.json").run = .ok profile := by
    have hformat : ProfileFormat.ofPath? "slow.json" = some .json := by decide +kernel
    rw [Profile.load, hformat]
    change Profile.ofText .json profile.jsonText = _
    rw [Profile.ofText, hread]
  have hcompile : Model.compile profile.rules Road.registry = .ok model := by
    decide +kernel
  have haccount : (Compilation.run profile.rules Road.registry).log = log.tail := by
    decide +kernel
  have hloaded : (loadModel files Road.registry "slow.json" "").run =
      ⟨.ok ⟨profile, model⟩, log⟩ := by
    rw [run_loadModel rfl hload, hcompile, haccount]
    rfl
  let edge : EdgeRecord := (EdgeRecord.new Road.registry).put speed.slot
    ⟨.number (.ofInt 110), .number (.ofInt 50)⟩
  have hfast : edgeOf Road.registry fast = .ok edge := by
    decide +kernel
  have hreport : evalReport profile model edge.store .both =
      "profile:  slow\nforward:  1\nbackward: 0\n" := by
    decide +kernel
  have hmuddy : edgeOf Road.registry muddy = .error (.refused (.unknownValue "surface" "MUD")) := by
    decide +kernel
  obtain ⟨hcarries, hrates⟩ := eval_rates_assigned_edge Road.registry
  refine ⟨hloaded, hcarries _ rfl _, hrates _ _ _ _ _ _ _ hloaded, ?_,
    hrates _ _ _ _ _ _ _ hloaded, ?_⟩
  · refine (run_eval_of_loadModel hloaded).trans ?_
    rw [hfast, ← hreport]
    rfl
  · refine (run_eval_of_loadModel hloaded).trans ?_
    rw [hmuddy]
    rfl

end Eval

end CommandLine

end RoutePriority
