import Mathlib.Data.List.TakeWhile
import WorkflowCatalog.EventLog
import WorkflowCatalog.Proofs.Documents

/-!
# Reading the event log back

An event is written on one line, since nothing that is written of a value is a control character: those of a text are
escaped. So a log whose last line is ended gains one line by each event, whatever its texts are, and the reader finds
the events on their lines in the order of their recording.
-/
namespace WorkflowCatalog

/-! ## Lines -/

namespace Text

/-- A text without newlines and carriage returns is one line if it is ended. -/
theorem lines_singleton {line : List Char} (newline : '\n' ∉ line) (carriage : '\r' ∉ line) :
    lines (line ++ ['\n']) = [line] := by
  rw [lines_of_newline newline, dropReturn_of_getLast? fun last => carriage (List.mem_of_getLast? last), lines_nil]

theorem trim_ne_nil {c : Char} (h : isBlank c = false) (cs : List Char) : trim (c :: cs) ≠ [] := by
  intro empty
  rw [trim, List.dropWhile_cons_of_neg (by simp [h]), trimEnd, List.reverse_eq_nil_iff, List.dropWhile_eq_nil_iff]
    at empty
  have blank := empty c (by simp)
  rw [h] at blank
  contradiction

end Text

/-! ## What is written of a value -/

namespace Json

/-- There is no control character of ASCII. -/
def IsPrintable (cs : List Char) : Prop := ∀ c ∈ cs, 0x20 ≤ c.toNat

@[simp] theorem isPrintable_nil : IsPrintable [] := List.forall_mem_nil _

@[simp] theorem isPrintable_cons {c : Char} {cs : List Char} :
    IsPrintable (c :: cs) ↔ 0x20 ≤ c.toNat ∧ IsPrintable cs := List.forall_mem_cons

@[simp] theorem isPrintable_append {cs ds : List Char} : IsPrintable (cs ++ ds) ↔ IsPrintable cs ∧ IsPrintable ds :=
  List.forall_mem_append

theorem isPrintable_flatMap {α : Type} {text : α → List Char} {as : List α} (h : ∀ a ∈ as, IsPrintable (text a)) :
    IsPrintable (as.flatMap text) := List.forall_mem_flatMap.mpr h

theorem printable_hexDigit {n : Nat} (h : n < 16) : 0x20 ≤ (Text.hexDigit n).toNat := by
  have all : ∀ m : Fin 16, 0x20 ≤ (Text.hexDigit m).toNat := by decide
  exact all ⟨n, h⟩

theorem isPrintable_escape (c : Char) : IsPrintable (escape c) := by
  unfold escape
  split
  case h_8 =>
    split
    · rename_i control
      have high := printable_hexDigit (n := c.toNat / 16) (by omega)
      have low := printable_hexDigit (n := c.toNat % 16) (by omega)
      simp [high, low]
    · rename_i printable
      simpa using printable
  all_goals simp

theorem isPrintable_quoted (s : String) : IsPrintable (quoted s) := by
  have escaped : IsPrintable (s.toList.flatMap escape) := isPrintable_flatMap fun c _ => isPrintable_escape c
  simp [quoted, escaped]

theorem isPrintable_joined {α : Type} {text : α → List Char} {a : α} {as : List α}
    (h : ∀ b ∈ a :: as, IsPrintable (text b)) : IsPrintable (joined [] text a as) := by
  obtain ⟨first, others⟩ := List.forall_mem_cons.mp h
  have rest : IsPrintable (as.flatMap fun b => ',' :: ([] ++ text b)) :=
    isPrintable_flatMap fun b hb => by simpa using others b hb
  exact isPrintable_append.mpr ⟨first, rest⟩

@[simp] theorem newline_compact (level : Nat) : compact.newline level = [] := rfl

@[simp] theorem colon_compact : compact.colon = [':'] := rfl

/-- On one line there are no control characters. -/
theorem isPrintable_write {j : Json} (h : j.IsPlain) (level : Nat) : IsPrintable (write compact level j) := by
  induction h generalizing level with
  | null => simp [write]
  | bool b => cases b <;> simp [write]
  | text s => exact isPrintable_quoted s
  | @array items _ ih =>
    cases items with
    | nil => simp [write]
    | cons j js =>
      have parts : IsPrintable (joined [] (write compact (level + 1)) j js) :=
        isPrintable_joined fun b hb => ih b hb (level + 1)
      rw [write_array]
      simp [parts]
  | @object fields _ ih =>
    cases fields with
    | nil => simp [write]
    | cons f fs =>
      have parts : IsPrintable (joined [] (writeField compact (level + 1)) f fs) := by
        refine isPrintable_joined fun g hg => ?_
        have value := ih g hg (level + 1)
        simp [writeField, isPrintable_quoted, value]
      rw [write_object]
      simp [parts]

end Json

/-! ## Events -/

open Json Json.Record

namespace RecordedEvent

theorem plain_toJson (e : RecordedEvent) : e.toJson.IsPlain :=
  .object (by simp [SyncResult.fields, Coding.text.plain_ofOption, Coding.text.list.plain])

theorem allHoldable_texts (fuel : Nat) (ss : List String) : allHoldable fuel (ss.map .text) = true := by
  induction ss with
  | nil => rfl
  | cons s ss ih => simp [allHoldable, holdable, ih]

theorem holdable_ofOption (fuel : Nat) (o : Option String) : holdable fuel (Json.ofOption .text o) = true := by
  cases o <;> simp [Json.ofOption, holdable]

theorem holdable_toJson (e : RecordedEvent) : holdable maxDepth e.toJson = true := by
  simp [maxDepth, toJson, SyncResult.fields, holdable, fieldsHoldable, holdable_ofOption, Json.ofList,
    allHoldable_texts]

theorem ofRecord?_fields (t : Json) (r : SyncResult) :
    SyncResult.ofRecord? ⟨false, ("recorded_at", t) :: r.fields⟩ = some r := by
  unfold SyncResult.ofRecord?
  refine bind_optional rfl (Coding.text.option?_ofOption _) ?_
  refine bind_defaulted rfl (Coding.text.list.read _) ?_
  refine bind_defaulted rfl (Coding.text.list.read _) ?_
  refine bind_defaulted rfl (Coding.text.list.read _) ?_
  refine bind_defaulted rfl (Coding.text.list.read _) ?_
  refine bind_required rfl rfl ?_
  exact bind_optional rfl (Coding.text.option?_ofOption _) rfl

/-- An event is read back from what is written of it. -/
theorem coding : Coding toJson ofJson? where
  plain := plain_toJson
  present _ := nofun
  read e := by
    have held := e.holdable_toJson
    unfold toJson at held ⊢
    rw [ofJson?, held]
    refine bind_record rfl (by decide) ?_
    refine bind_required rfl (Timestamp.ofText?_text _) ?_
    rw [ofRecord?_fields]
    rfl

end RecordedEvent

/-! ## The log -/

namespace EventLog

theorem toList_line (e : RecordedEvent) : (line e).toList = e.toJson.oneLine.toList ++ ['\n'] := by
  simp [line]

/-- An event takes one line. -/
theorem lines_line (e : RecordedEvent) : Text.lines (line e).toList = [e.toJson.oneLine.toList] := by
  have printable : IsPrintable e.toJson.oneLine.toList := by
    rw [oneLine, String.toList_ofList]
    exact isPrintable_write e.plain_toJson 0
  have newline : '\n' ∉ e.toJson.oneLine.toList := fun h => absurd (printable _ h) (by decide)
  have carriage : '\r' ∉ e.toJson.oneLine.toList := fun h => absurd (printable _ h) (by decide)
  rw [toList_line, Text.lines_singleton newline carriage]

/-- The line of an event is not blank. -/
theorem trim_oneLine (e : RecordedEvent) : (Text.trim e.toJson.oneLine.toList).isEmpty = false := by
  rw [oneLine, String.toList_ofList, RecordedEvent.toJson, write_object, List.isEmpty_eq_false_iff]
  exact Text.trim_ne_nil (by decide) _

theorem read?_line (e : RecordedEvent) : read? (line e) = some [e] := by
  have event : (Json.read? e.toJson.oneLine).bind RecordedEvent.ofJson? = some e := by
    rw [read?_oneLine e.plain_toJson]
    exact RecordedEvent.coding.read e
  simp [read?, lines_line, trim_oneLine, event]

/-- No line of the log is left without its end. A log that is not there is empty. -/
def IsWhole (log : String) : Prop := log = "" ∨ ∃ before, log = before ++ "\n"

theorem isWhole_append (log : String) (e : RecordedEvent) : IsWhole (append log e) :=
  .inr ⟨log ++ e.toJson.oneLine, by rw [append, line, String.append_assoc]⟩

theorem lines_followed {log : String} (whole : IsWhole log) (rest : List Char) :
    Text.lines (log.toList ++ rest) = Text.lines log.toList ++ Text.lines rest := by
  obtain rfl | ⟨before, rfl⟩ := whole
  · rfl
  · have ended : (before ++ "\n").toList = before.toList ++ '\n' :: [] := by simp
    rw [ended, Text.lines_append_newline, Text.lines_nil, List.append_nil, List.append_assoc]
    exact Text.lines_append_newline before.toList rest

theorem lines_append {log : String} (whole : IsWhole log) (e : RecordedEvent) :
    Text.lines (append log e).toList = Text.lines log.toList ++ [e.toJson.oneLine.toList] := by
  rw [append, String.toList_append, lines_followed whole, lines_line]

theorem read?_append {log : String} (whole : IsWhole log) (e : RecordedEvent) :
    read? (append log e) = (read? log).map (· ++ [e]) := by
  have events : read? (append log e) = (do return (← read? log) ++ (← read? (line e))) := by
    rw [read?, read?, read?, lines_line, lines_append whole, List.filter_append, List.mapM_append]
  rw [events, read?_line]
  cases read? log <;> rfl

/-- Recording adds one line for each event, whatever its texts are. Reading finds on them the events that were recorded,
in their order, after those that the log had. -/
theorem read?_recorded {log : String} (whole : IsWhole log) (es : List RecordedEvent) :
    Text.lines (es.foldl append log).toList = Text.lines log.toList ++ es.map (fun e => e.toJson.oneLine.toList) ∧
      read? (es.foldl append log) = (read? log).map (· ++ es) := by
  induction es generalizing log with
  | nil => simp
  | cons e es ih =>
    obtain ⟨lines, events⟩ := ih (isWhole_append log e)
    rw [List.foldl_cons]
    refine ⟨?_, ?_⟩
    · rw [lines, lines_append whole, List.append_assoc]
      rfl
    · rw [events, read?_append whole, Option.map_map]
      cases read? log <;> simp

namespace Sample

/-- A failure whose message has line ends, quotes, a control character and a letter beyond ASCII. -/
def failure : RecordedEvent :=
  ⟨⟨"2025-05-01T00:00:00Z", by decide +kernel⟩, .callFailure "a\n\"b\"\r\n\x01\\\u00e9"⟩

def success : RecordedEvent := ⟨failure.recordedAt, { SyncResult.nothing with added := ["\n"] }⟩

end Sample

theorem sample_events_recorded : IsWhole (append "" Sample.success) ∧
    (Text.lines ([Sample.failure, Sample.success].foldl append (append "" Sample.success)).toList).length = 3 ∧
    read? ([Sample.failure, Sample.success].foldl append (append "" Sample.success)) =
      some [Sample.success, Sample.failure, Sample.success] := by
  have recorded := read?_recorded (isWhole_append "" Sample.success) [Sample.failure, Sample.success]
  have first : read? (append "" Sample.success) = some [Sample.success] := read?_append (.inl rfl) Sample.success
  refine ⟨isWhole_append "" Sample.success, ?_, ?_⟩
  · rw [recorded.1, lines_append (.inl rfl)]
    rfl
  · rw [recorded.2, first]
    rfl

end EventLog

end WorkflowCatalog
