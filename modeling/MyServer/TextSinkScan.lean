import MyServer.TextSinkOrder

/-!
What the scan of `TextSink::format_impl` makes of an arbitrary line. The line is cut at the
keys it resolves; each value is replaced and everything else is copied.
-/

namespace MyServer

open TextSearch

structure ScanPart where
  text : Text
  kind : KeyKind
  value : Text

def sourceText (parts : List ScanPart) (last : Text) : Text :=
  (parts.flatMap fun part => part.text ++ part.value) ++ last

def resultText (parts : List ScanPart) (shown : List Text) (last : Text) : Text :=
  (List.zipWith (fun part text => part.text ++ text) parts shown).flatten ++ last

structure Decomposes (line : Text) (parts : List ScanPart) (last : Text) : Prop where
  whole : line = sourceText parts last
  keyed : ∀ part ∈ parts, part.kind.key <:+ part.text
  free : ∀ part ∈ parts, ' ' ∉ part.value
  longest : ∀ before part after, parts = before ++ part :: after →
    ∀ c, (sourceText after last).head? = some c → c = ' '

def SinkFailure.thrown : SinkFailure → Bool
  | .invalidArgument _ => true
  | .outOfRange what => what = "stoull" || what = "stoi"
  | .outOfBounds => false

structure ScanProceeds (formatTime : UInt64 → Text) (line : Text) : Prop where
  terminates : ∃ outcome, textSinkFormat formatTime line = some outcome
  advances : ∀ pos result next longer, pos < line.length →
    formatTurn formatTime line pos result = .ok (.again next longer) →
    pos < next ∧ next ≤ line.length
  starts : ∀ pos result, pos < line.length →
    formatTurn formatTime line pos result ≠ .error (.outOfRange "basic_string_view::substr")

structure ScanSound (formatTime : UInt64 → Text) (line : Text) : Prop
    extends ScanProceeds formatTime line where
  keeps : (∀ failure, textSinkFormat formatTime line = some (.error failure) →
      failure.thrown = false) →
    ∃ parts last shown, Decomposes line parts last ∧
      List.Forall₂ (fun part text => part.kind.render formatTime part.value = .ok text)
        parts shown ∧
      textSinkFormat formatTime line = some (.ok (resultText parts shown last))

def scanParts (text : Text) : List ScanPart × Text :=
  match _found : nextKey text with
  | none => ([], text)
  | some (kind, before, after) =>
      let rest := scanParts (behind after)
      (⟨before ++ kind.key, kind, valueOf after⟩ :: rest.1, rest.2)
termination_by text.length
decreasing_by exact behind_shorter _found

namespace KeyKind

def convert : KeyKind → Text → Except SinkFailure Nat
  | .timestamp, value => (stoull value).map UInt64.toNat
  | .classId, value => (stoi value).map (toEnum 8)
  | .methodId, value => (stoi value).map (toEnum 16)

def display (formatTime : UInt64 → Text) : KeyKind → Nat → Except SinkFailure Text
  | .timestamp, us => .ok (formatTime (UInt64.ofNat us))
  | .classId, id => className id
  | .methodId, id => methodName id

def Names : KeyKind → Nat → Prop
  | .timestamp, _ => True
  | .classId, id => id < logClassIdCount
  | .methodId, id => id < methodIdCount

theorem render_eq (formatTime : UInt64 → Text) (kind : KeyKind) (value : Text) :
    kind.render formatTime value = (kind.convert value).bind (kind.display formatTime) := by
  cases kind with
  | timestamp =>
      change renderTimestamp formatTime value = _
      cases converted : stoull value with
      | error failure => simp [renderTimestamp, convert, converted, Except.map, bind, Except.bind]
      | ok us =>
          simp [renderTimestamp, convert, display, converted, Except.map, bind, Except.bind, pure,
            Except.pure]
  | classId =>
      change renderClass value = _
      cases converted : stoi value <;>
        simp [renderClass, convert, display, converted, Except.map, bind, Except.bind]
  | methodId =>
      change renderMethod value = _
      cases converted : stoi value <;>
        simp [renderMethod, convert, display, converted, Except.map, bind, Except.bind]

theorem stoull_thrown {value : Text} {failure : SinkFailure}
    (fails : stoull value = .error failure) : failure.thrown = true := by
  simp only [stoull] at fails
  split at fails
  · cases fails
    rfl
  · split at fails
    · cases fails
      rfl
    · cases fails

theorem stoi_thrown {value : Text} {failure : SinkFailure}
    (fails : stoi value = .error failure) : failure.thrown = true := by
  simp only [stoi] at fails
  by_cases empty : (readNumber value).2 = []
  · rw [if_pos empty] at fails
    cases fails
    rfl
  · rw [if_neg empty] at fails
    generalize (if (readNumber value).1 = true then
      -(Nat.ofDigitChars 10 (readNumber value).2 0 : Int)
      else (Nat.ofDigitChars 10 (readNumber value).2 0 : Int)) = number at fails
    split at fails
    · cases fails
      rfl
    · cases fails

theorem convert_thrown {kind : KeyKind} {value : Text} {failure : SinkFailure}
    (fails : kind.convert value = .error failure) : failure.thrown = true := by
  cases kind with
  | timestamp =>
      cases converted : stoull value with
      | error other =>
          simp only [convert, converted, Except.map, Except.error.injEq] at fails
          exact fails ▸ stoull_thrown converted
      | ok us => simp [convert, converted, Except.map] at fails
  | classId | methodId =>
      cases converted : stoi value with
      | error other =>
          simp only [convert, converted, Except.map, Except.error.injEq] at fails
          exact fails ▸ stoi_thrown converted
      | ok id => simp [convert, converted, Except.map] at fails

theorem nameAt_cases (names : List Text) (id : Nat) :
    (id < names.length → ∃ text, nameAt names id = .ok text) ∧
      (¬id < names.length → nameAt names id = .error .outOfBounds) := by
  unfold nameAt
  constructor
  · intro inside
    exact ⟨names[id], by rw [List.getElem?_eq_getElem inside]⟩
  · intro beyond
    rw [List.getElem?_eq_none (Nat.not_lt.mp beyond)]

theorem display_cases (formatTime : UInt64 → Text) (kind : KeyKind) (id : Nat) :
    (kind.Names id → ∃ text, kind.display formatTime id = .ok text) ∧
      (¬kind.Names id → kind.display formatTime id = .error .outOfBounds) := by
  cases kind with
  | timestamp => exact ⟨fun _ => ⟨_, rfl⟩, fun never => absurd trivial never⟩
  | classId => exact nameAt_cases kClassNames id
  | methodId => exact nameAt_cases kMethodNames id

end KeyKind

def IdsNamed : List ScanPart → Prop
  | [] => True
  | part :: rest =>
      match part.kind.convert part.value with
      | .error _ => True
      | .ok id => part.kind.Names id ∧ IdsNamed rest

def renderAll (formatTime : UInt64 → Text) : List ScanPart → Except SinkFailure (List Text)
  | [] => .ok []
  | part :: rest => do
      let text ← part.kind.render formatTime part.value
      let texts ← renderAll formatTime rest
      return text :: texts

theorem scanParts_none {text : Text} (none : nextKey text = none) : scanParts text = ([], text) := by
  rw [scanParts]
  split
  · rfl
  · rename_i found
    simp [none] at found

theorem scanParts_some {text before after : Text} {kind : KeyKind}
    (found : nextKey text = some (kind, before, after)) :
    scanParts text = (⟨before ++ kind.key, kind, valueOf after⟩ :: (scanParts (behind after)).1,
      (scanParts (behind after)).2) := by
  rw [scanParts]
  split
  · rename_i none
    simp [none] at found
  · rename_i other
    rw [found] at other
    obtain ⟨rfl, rfl, rfl⟩ : kind = _ ∧ before = _ ∧ after = _ := by simpa using other
    rfl

theorem space_of_behind {after : Text} {c : Char} (first : (behind after).head? = some c) :
    c = ' ' := by
  have stops := List.head?_dropWhile_not (· ≠ ' ') after
  rw [show (after.dropWhile (· ≠ ' ')).head? = some c from first] at stops
  simpa using stops

theorem Decomposes.nil (text : Text) : Decomposes text [] text where
  whole := rfl
  keyed := nofun
  free := nofun
  longest := by
    intro before part after split
    simp at split

theorem Decomposes.cons {line last text value : Text} {kind : KeyKind} {parts : List ScanPart}
    (rest : Decomposes line parts last) (keyed : kind.key <:+ text)
    (free : ' ' ∉ value) (longest : ∀ c, line.head? = some c → c = ' ') :
    Decomposes (text ++ value ++ line) (⟨text, kind, value⟩ :: parts) last where
  whole := by
    rw [rest.whole, sourceText, sourceText, List.flatMap_cons, List.append_assoc, List.append_assoc,
      List.append_assoc]
  keyed := List.forall_mem_cons.mpr ⟨keyed, rest.keyed⟩
  free := List.forall_mem_cons.mpr ⟨free, rest.free⟩
  longest := by
    intro before other after split
    cases before with
    | nil =>
        obtain ⟨rfl, rfl⟩ := List.cons.inj split
        rw [← rest.whole]
        exact longest
    | cons first before =>
        obtain ⟨_, tails⟩ := List.cons.inj split
        exact rest.longest before other after tails

theorem scanParts_decomposes (text : Text) :
    Decomposes text (scanParts text).1 (scanParts text).2 := by
  induction text using scanParts.induct with
  | case1 text none =>
      rw [scanParts_none none]
      exact .nil text
  | case2 text kind before after found ih =>
      have whole : text = before ++ kind.key ++ valueOf after ++ behind after := by
        rw [List.append_assoc _ (valueOf after), valueOf_append_behind, ← nextKey_some found]
      have free : ' ' ∉ valueOf after := by
        intro inside
        simpa using List.mem_takeWhile_imp inside
      have cut := ih.cons (List.suffix_append before kind.key) free fun _ => space_of_behind
      rw [scanParts_some found]
      rwa [← whole] at cut

/-- The result is put together from the parts, in their order. -/
theorem formatFrom_scan (formatTime : UInt64 → Text) (text : Text) :
    formatFrom formatTime text = (renderAll formatTime (scanParts text).1).map fun shown =>
      resultText (scanParts text).1 shown (scanParts text).2 := by
  induction text using scanParts.induct with
  | case1 text none =>
      rw [scanParts_none none, formatFrom_none none]
      rfl
  | case2 text kind before after found ih =>
      rw [scanParts_some found, formatFrom_some found, ih]
      simp only [renderAll, bind, Except.bind]
      cases kind.render formatTime (valueOf after) with
      | error failure => rfl
      | ok shown =>
          cases renderAll formatTime (scanParts (behind after)).1 with
          | error failure => rfl
          | ok rest => simp [Except.map, pure, Except.pure, resultText]

theorem renderAll_ok {formatTime : UInt64 → Text} {parts : List ScanPart} {shown : List Text}
    (renders : renderAll formatTime parts = .ok shown) :
    List.Forall₂ (fun part text => part.kind.render formatTime part.value = .ok text)
      parts shown := by
  induction parts generalizing shown with
  | nil =>
      cases renders
      exact .nil
  | cons part rest ih =>
      simp only [renderAll, bind, Except.bind] at renders
      cases first : part.kind.render formatTime part.value with
      | error failure => simp [first] at renders
      | ok text =>
          cases others : renderAll formatTime rest with
          | error failure => simp [first, others] at renders
          | ok texts =>
              simp only [first, others, pure, Except.pure, Except.ok.injEq] at renders
              subst renders
              exact .cons first (ih others)

/-- A rendering that fails throws from a conversion, or an id is outside its table. -/
theorem renderAll_error (formatTime : UInt64 → Text) (parts : List ScanPart) :
    (IdsNamed parts → ∀ failure, renderAll formatTime parts = .error failure →
      failure.thrown = true) ∧
    (¬IdsNamed parts → renderAll formatTime parts = .error .outOfBounds) := by
  induction parts with
  | nil => exact ⟨nofun, fun never => absurd trivial never⟩
  | cons part rest ih =>
      simp only [IdsNamed, renderAll, KeyKind.render_eq]
      cases converted : part.kind.convert part.value with
      | error failure =>
          refine ⟨fun _ other fails => ?_, fun never => absurd trivial never⟩
          cases fails
          exact KeyKind.convert_thrown converted
      | ok id =>
          obtain ⟨named, unnamed⟩ := part.kind.display_cases formatTime id
          by_cases inside : part.kind.Names id
          · obtain ⟨text, shows⟩ := named inside
            simp only [Except.bind, bind, shows, inside, true_and]
            cases others : renderAll formatTime rest with
            | error failure =>
                refine ⟨fun ids other fails => ?_, fun ids => ?_⟩
                · cases fails
                  exact ih.1 ids _ others
                · have beyond := ih.2 ids
                  rw [others] at beyond
                  exact beyond
            | ok texts =>
                refine ⟨nofun, fun ids => ?_⟩
                rw [ih.2 ids] at others
                cases others
          · refine ⟨fun ids => absurd ids.1 inside, fun _ => ?_⟩
            simp only [Except.bind, bind, unnamed inside]

theorem textSinkFormat_scan (formatTime : UInt64 → Text) (line : Text) :
    textSinkFormat formatTime line = some ((renderAll formatTime (scanParts line).1).map
      fun shown => resultText (scanParts line).1 shown (scanParts line).2) := by
  rw [textSinkFormat_eq, formatFrom_scan]

section Turns

variable {formatTime : UInt64 → Text} {line : Text} {pos : Nat} {result : Text}

/-- A turn that goes on has moved past a key, and stays in the line. -/
theorem formatTurn_advances {next : Nat} {longer : Text} (inside : pos < line.length)
    (turned : formatTurn formatTime line pos result = .ok (.again next longer)) :
    pos < next ∧ next ≤ line.length := by
  rw [formatTurn_eq (Nat.le_of_lt inside)] at turned
  cases found : nextKey (line.drop pos) with
  | none => simp [found] at turned
  | some parts =>
      obtain ⟨kind, before, after⟩ := parts
      have lengths := congrArg List.length (nextKey_some found)
      have split := congrArg List.length (valueOf_append_behind after)
      have positive := List.length_pos_iff.mpr kind.key_ne_nil
      simp only [List.length_drop, List.length_append] at lengths split
      cases shown : kind.render formatTime (valueOf after) with
      | error failure => simp [found, shown, Except.map] at turned
      | ok text =>
          simp only [found, shown, Except.map, Except.ok.injEq, Turn.again.injEq] at turned
          omega

theorem render_not_substr (formatTime : UInt64 → Text) (kind : KeyKind) (value : Text) :
    kind.render formatTime value ≠ .error (.outOfRange "basic_string_view::substr") := by
  intro fails
  rw [KeyKind.render_eq] at fails
  cases converted : kind.convert value with
  | error failure =>
      have thrown := KeyKind.convert_thrown converted
      simp only [converted, Except.bind, Except.error.injEq] at fails
      rw [fails] at thrown
      exact absurd thrown (by decide)
  | ok id =>
      obtain ⟨named, unnamed⟩ := kind.display_cases formatTime id
      rw [converted] at fails
      change kind.display formatTime id = _ at fails
      by_cases inside : kind.Names id
      · obtain ⟨text, shows⟩ := named inside
        rw [shows] at fails
        cases fails
      · rw [unnamed inside] at fails
        cases fails

theorem formatTurn_starts (inside : pos < line.length) :
    formatTurn formatTime line pos result ≠ .error (.outOfRange "basic_string_view::substr") := by
  rw [formatTurn_eq (Nat.le_of_lt inside)]
  cases nextKey (line.drop pos) with
  | none => nofun
  | some parts =>
      obtain ⟨kind, before, after⟩ := parts
      intro fails
      cases shown : kind.render formatTime (valueOf after) with
      | error failure =>
          simp only [shown, Except.map, Except.error.injEq] at fails
          rw [fails] at shown
          exact render_not_substr formatTime kind (valueOf after) shown
      | ok text => simp [shown, Except.map] at fails

end Turns

theorem scan_proceeds (formatTime : UInt64 → Text) (line : Text) :
    ScanProceeds formatTime line where
  terminates := ⟨_, textSinkFormat_scan formatTime line⟩
  advances := fun _ _ _ _ inside turned => formatTurn_advances inside turned
  starts := fun _ _ inside => formatTurn_starts inside

/-- For every line the scan ends, moves on in each turn and stays in the line; and if no
conversion throws, it keeps every byte outside the values, exactly when no id is outside its
name table. -/
theorem scan_sound_iff (formatTime : UInt64 → Text) (line : Text) :
    ScanProceeds formatTime line ∧
      (ScanSound formatTime line ↔ IdsNamed (scanParts line).1) := by
  have run := textSinkFormat_scan formatTime line
  obtain ⟨thrown, unnamed⟩ := renderAll_error formatTime (scanParts line).1
  refine ⟨scan_proceeds formatTime line, ?_, ?_⟩
  · intro sound
    by_contra never
    rw [unnamed never] at run
    have calm : ∀ failure, textSinkFormat formatTime line = some (.error failure) →
        failure.thrown = false := by
      intro failure fails
      rw [run] at fails
      cases fails
      rfl
    obtain ⟨parts, last, shown, _, _, whole⟩ := sound.keeps calm
    rw [run] at whole
    cases whole
  · intro ids
    refine { scan_proceeds formatTime line with keeps := fun calm => ?_ }
    cases renders : renderAll formatTime (scanParts line).1 with
    | error failure =>
        rw [renders] at run
        have quiet := calm failure run
        rw [thrown ids failure renders] at quiet
        cases quiet
    | ok shown =>
        rw [renders] at run
        exact ⟨_, _, shown, scanParts_decomposes line, renderAll_ok renders, run⟩

/-- The id converts, and its name is read past the end of the table. -/
theorem scan_reads_past_names :
    stoi "2".toList = .ok 2 ∧
      textSinkFormat earlyTime "class_id=2".toList = some (.error .outOfBounds) ∧
      ¬∀ line, ScanSound earlyTime line := by
  have fails : textSinkFormat earlyTime "class_id=2".toList = some (.error .outOfBounds) := by
    decide +kernel
  refine ⟨by decide +kernel, fails, fun sound => ?_⟩
  have calm : ∀ failure, textSinkFormat earlyTime "class_id=2".toList = some (.error failure) →
      failure.thrown = false := by
    intro failure other
    rw [fails] at other
    cases other
    rfl
  obtain ⟨parts, last, shown, _, _, whole⟩ := (sound "class_id=2".toList).keeps calm
  rw [fails] at whole
  cases whole

end MyServer
