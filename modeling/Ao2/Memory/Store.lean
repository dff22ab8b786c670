import Ao2.Checks
import Ao2.Interaction.Pool
import Ao2.Texts.Lines

/-!
# The memory store

The records of a target are the lines of a file. `appendJsonl` opens the file for appending and writes
the text of a value and then a line break; `readJsonlValues` reads all lines and fails on the first
that is no JSON text.

Any number of processes append to one file. A process can stop, or a write can fail, at any point; a
write that fails may have added a part of what it was to add.

## Main results

* `not_storeReadable_interleaved` — two appends return, and nothing can be read any more
-/

namespace Ao2

open Interaction

/-! ### Reading -/

section

variable [JsonText]

/-- The values on the lines from a line on. -/
def readLines (path : String) : ℕ → List String → Except String (List Json)
  | _, [] => .ok []
  | index, line :: rest =>
    if line = "" then readLines path (index + 1) rest
    else
      match parseJson line with
      | none => .error ("parse " ++ path ++ " line " ++ toString (index + 1))
      | some value => (readLines path (index + 1) rest).map (value :: ·)

/-- The values in a file; a file that does not exist has none. -/
def readJsonlValues (path : String) (file : Option (List Char)) : Except String (List Json) :=
  match file with
  | none => .ok []
  | some content => readLines path 0 ((lines content).map fun line => trim (.ofList line))

end

/-! ### Appending -/

/-- What an append does to the files. -/
inductive MemoryOp where
  | createDirAll
  | openAppend
  | write (piece : List Char)
  deriving DecidableEq

/-- A write that fails tells how much it has added; the process is not told. -/
@[reducible] def MemorySignature : Signature where
  Op := MemoryOp
  Ans
    | .createDirAll | .openAppend => Except String Unit
    | .write _ => Except ℕ Unit

/-- A value is appended to the file at a path. -/
def appendJsonl (path : String) (value : Json) : Prog MemorySignature String Unit := do
  let created ← Prog.perform (S := MemorySignature) .createDirAll
  .ofExcept (created.mapError fun _ => "create " ++ parentPath path)
  let opened ← Prog.perform (S := MemorySignature) .openAppend
  .ofExcept (opened.mapError fun _ => "open " ++ path)
  let written ← Prog.perform (S := MemorySignature) (.write value.compactText)
  .ofExcept (written.mapError fun _ => "write " ++ path)
  let ended ← Prog.perform (S := MemorySignature) (.write ['\n'])
  .ofExcept (ended.mapError fun _ => "write " ++ path)

/-- How the operations go. -/
abbrev MemoryAnswers := (op : MemoryOp) → MemorySignature.Ans op

/-- What an operation adds to the file. -/
def addedBy : Event MemorySignature → List Char
  | ⟨.createDirAll, _⟩ | ⟨.openAppend, _⟩ => []
  | ⟨.write piece, .ok ()⟩ => piece
  | ⟨.write piece, .error kept⟩ => piece.take kept

/-- The file, which is not there at first. -/
def memoryMachine (answers : MemoryAnswers) : Machine MemorySignature (Option (List Char)) where
  step
    | .createDirAll, file => (answers .createDirAll, file)
    | .openAppend, file =>
      (answers .openAppend, match answers .openAppend with
        | .ok () => some (file.getD [])
        | .error _ => file)
    | .write piece, file =>
      (answers (.write piece), some (file.getD [] ++ addedBy ⟨.write piece, answers (.write piece)⟩))

abbrev MemoryPool := Pool Json (Option (List Char)) MemorySignature String Unit

abbrev MemoryTraceEntry := TraceEntry Json (Option (List Char)) MemorySignature

/-- A run of any number of appends to the file at a path. -/
def memoryRun (path : String) (moves : List (PoolMove Json MemoryAnswers)) : MemoryPool :=
  (Pool.initial none).run (appendJsonl path) memoryMachine moves

/-! ### The property -/

/-- The values in the file are those of some appends, each of them once, and of every append that has
returned. -/
structure StoreReadable [JsonText] (path : String) (P : MemoryPool) : Prop where
  readable : ∃ values order, readJsonlValues path P.world = .ok values ∧
    List.Forall₂ (fun value index => ∃ m, P.members[index]? = some m ∧ m.call = value) values order ∧
    order.Nodup ∧ ∀ (index : ℕ) m, P.members[index]? = some m → m.program = .done () → index ∈ order

/-- What a write of a value must find: the start of a line, unless nothing is written. It is not torn. -/
def CleanWrite (e : MemoryTraceEntry) : Prop :=
  e.event.op = .write e.call.compactText →
    addedBy e.event = [] ∨ addedBy e.event = e.call.compactText ∧
      (e.before.getD [] = [] ∨ (e.before.getD []).getLast? = some '\n')

instance (e : MemoryTraceEntry) : Decidable (CleanWrite e) :=
  inferInstanceAs (Decidable (e.event.op = .write e.call.compactText →
    addedBy e.event = [] ∨ addedBy e.event = e.call.compactText ∧
      (e.before.getD [] = [] ∨ (e.before.getD []).getLast? = some '\n')))

/-! ### What an append does -/

/-- An append writes its value and then a line break. -/
def WritesInOrder (value : Json) (history : List (Event MemorySignature)) (op : MemoryOp) : Prop :=
  ∀ piece, op = .write piece →
    history.length = 2 ∧ piece = value.compactText ∨ history.length = 3 ∧ piece = ['\n']

/-- An append that has returned has written its value. -/
def HasWritten (value : Json) (history : List (Event MemorySignature)) : Prop :=
  ∃ earlier later, history = earlier ++ ⟨.write value.compactText, .ok ()⟩ :: later

theorem appendJsonl_traced (path : String) (value : Json) :
    (appendJsonl path value).Traced (WritesInOrder value) (fun history _ => HasWritten value history)
      (fun _ _ => True) [] := by
  rw [appendJsonl]
  refine ⟨by rintro piece ⟨⟩, fun created => ?_⟩
  cases created with
  | error message => trivial
  | ok u =>
    refine ⟨by rintro piece ⟨⟩, fun opened => ?_⟩
    cases opened with
    | error message => trivial
    | ok u =>
      refine ⟨by rintro piece ⟨⟩; exact .inl ⟨rfl, rfl⟩, fun written => ?_⟩
      cases written with
      | error message => trivial
      | ok u =>
        refine ⟨by rintro piece ⟨⟩; exact .inr ⟨rfl, rfl⟩, fun ended => ?_⟩
        cases ended with
        | error message => trivial
        | ok u => exact ⟨[_, _], [_], rfl⟩

theorem coherent_memoryRun (path : String) (moves : List (PoolMove Json MemoryAnswers)) :
    (memoryRun path moves).Coherent WritesInOrder (fun value history _ => HasWritten value history)
      fun _ _ _ => True :=
  Pool.coherent_run (appendJsonl_traced path) none moves

/-! ### What a write does to what is read -/

/-- The file after an operation. -/
theorem getD_memoryMachine_step {e : MemoryTraceEntry} {answers : MemoryAnswers}
    (h : ((memoryMachine answers).step e.event.op e.before).1 = e.event.ans) :
    ((memoryMachine answers).step e.event.op e.before).2.getD [] =
      e.before.getD [] ++ addedBy e.event := by
  obtain ⟨index, call, earlier, before, op, ans⟩ := e
  cases op with
  | createDirAll => exact (List.append_nil _).symm
  | openAppend =>
    change (match answers .openAppend with
      | .ok () => some (before.getD [])
      | .error _ => before).getD [] = before.getD [] ++ []
    rw [List.append_nil]
    cases answers .openAppend <;> rfl
  | write piece =>
    change answers (.write piece) = ans at h
    subst h
    rfl

/-- What a write of a value has added to what is read. -/
def valueOf (e : MemoryTraceEntry) : Option Json :=
  if e.event.op = .write e.call.compactText ∧ addedBy e.event = e.call.compactText then some e.call
  else none

theorem addedBy_break {event : Event MemorySignature} (hop : event.op = .write ['\n'])
    (hadded : addedBy event ≠ []) : addedBy event = ['\n'] := by
  obtain ⟨op, ans⟩ := event
  change op = _ at hop
  subst hop
  cases ans with
  | ok u => rfl
  | error kept =>
    cases kept with
    | zero => exact absurd rfl hadded
    | succ kept => exact List.take_of_length_le (Nat.le_add_left 1 kept)

section

variable [JsonText] {path : String}

theorem readLines_eq_ok_iff {texts : List String} {index : ℕ} {values : List Json} :
    readLines path index texts = .ok values ↔
      (texts.filter (· ≠ "")).mapM parseJson = some values := by
  induction texts generalizing index values with
  | nil => simp [readLines, eq_comm]
  | cons text texts ih =>
    rw [readLines]
    by_cases htext : text = ""
    · rw [if_pos htext, ih, List.filter_cons_of_neg (by simpa using htext)]
    · rw [if_neg htext, List.filter_cons_of_pos (by simpa using htext), List.mapM_cons]
      cases parseJson text with
      | none => simp
      | some value => simp [map_eq_ok, ih, Option.bind_eq_some_iff]

theorem readJsonlValues_eq_ok_iff {file : Option (List Char)} {values : List Json} :
    readJsonlValues path file = .ok values ↔
      (filledLines (file.getD [])).mapM parseJson = some values := by
  cases file with
  | none =>
    change Except.ok [] = Except.ok values ↔ some [] = some values
    rw [Except.ok.injEq, Option.some_inj]
  | some content => exact readLines_eq_ok_iff

/-- What is read after an operation of an append that is clean. -/
theorem mapM_parseJson_append {e : MemoryTraceEntry} (hwrites : WritesInOrder e.call e.earlier e.event.op)
    (hclean : CleanWrite e) (hread : parseJson e.call.compact = some e.call) {values : List Json}
    (hbefore : (filledLines (e.before.getD [])).mapM parseJson = some values) :
    (filledLines (e.before.getD [] ++ addedBy e.event)).mapM parseJson =
      some (values ++ (valueOf e).toList) := by
  have hnothing (hadded : addedBy e.event = []) : valueOf e = none :=
    if_neg fun h => e.call.compactText_ne_nil (h.2.symm.trans hadded)
  by_cases hadded : addedBy e.event = []
  · rw [hadded, List.append_nil, hnothing hadded, hbefore]
    simp
  -- what adds something is a write
  obtain ⟨piece, hop⟩ : ∃ piece, e.event.op = .write piece := by
    obtain ⟨index, call, earlier, before, op, ans⟩ := e
    cases op with
    | write piece => exact ⟨piece, rfl⟩
    | _ => exact absurd rfl hadded
  rcases hwrites piece hop with ⟨-, rfl⟩ | ⟨-, rfl⟩
  · obtain hnone | ⟨hall, hstart⟩ := hclean hop
    · exact absurd hnone hadded
    · rw [hall, Json.filledLines_append_compactText hstart, List.mapM_append, hbefore, valueOf,
        if_pos ⟨hop, hall⟩]
      simp [hread]
  · have hbreak : addedBy e.event = ['\n'] := addedBy_break hop hadded
    rw [hbreak, filledLines_concat_break, hbefore, valueOf, if_neg]
    · simp
    · rintro ⟨-, hall⟩
      have hmem := e.call.compactText_no_break
      rw [← hall, hbreak] at hmem
      exact hmem (List.mem_singleton_self _)

end

/-! ### The values that are added -/

/-- The process whose value an operation adds. -/
def writerOf (e : MemoryTraceEntry) : Option ℕ := (valueOf e).map fun _ => e.index

theorem valueOf_eq_some {e : MemoryTraceEntry} {value : Json} (h : valueOf e = some value) :
    e.event.op = .write e.call.compactText ∧ value = e.call := by
  rw [valueOf] at h
  split_ifs at h with hwritten
  exact ⟨hwritten.1, (Option.some.inj h).symm⟩

/-- A value is written by the third operation of its append. -/
theorem length_earlier_of_writerOf {e : MemoryTraceEntry} {index : ℕ}
    (hwrites : WritesInOrder e.call e.earlier e.event.op) (h : writerOf e = some index) :
    e.index = index ∧ e.earlier.length = 2 := by
  obtain ⟨value, hvalue, rfl⟩ := Option.map_eq_some_iff.mp h
  refine ⟨rfl, ?_⟩
  rcases hwrites _ (valueOf_eq_some hvalue).1 with ⟨hlength, -⟩ | ⟨-, htext⟩
  · exact hlength
  · exact absurd (htext ▸ List.mem_singleton_self _) e.call.compactText_no_break

/-- **No append adds two values.** -/
theorem nodup_writerOf (path : String) (moves : List (PoolMove Json MemoryAnswers)) :
    ((memoryRun path moves).trace.filterMap writerOf).Nodup := by
  have hcoherent := coherent_memoryRun path moves
  rw [List.Nodup, List.pairwise_filterMap, List.pairwise_iff_getElem]
  intro n n' hn hn' hlt index hindex index' hindex' heq
  obtain ⟨rfl, hlength⟩ :=
    length_earlier_of_writerOf (hcoherent.entries _ (List.getElem_mem hn)) hindex
  obtain ⟨rfl, hlength'⟩ :=
    length_earlier_of_writerOf (hcoherent.entries _ (List.getElem_mem hn')) hindex'
  have hshorter := hcoherent.earlier_length_lt (List.getElem?_eq_getElem hn)
    (List.getElem?_eq_getElem hn') heq hlt
  omega

/-- The values that are added are those of their processes. -/
theorem forall₂_valueOf {P : MemoryPool} {trace : List MemoryTraceEntry}
    (hcalls : ∀ e ∈ trace, ∃ m, P.members[e.index]? = some m ∧ m.call = e.call) :
    List.Forall₂ (fun value index => ∃ m, P.members[index]? = some m ∧ m.call = value)
      (trace.filterMap valueOf) (trace.filterMap writerOf) := by
  induction trace with
  | nil => exact .nil
  | cons e trace ih =>
    have htail := ih fun x hx => hcalls x (List.mem_cons_of_mem e hx)
    rw [List.filterMap_cons, List.filterMap_cons, writerOf]
    cases hvalue : valueOf e with
    | none => exact htail
    | some value =>
      refine .cons ?_ htail
      rw [(valueOf_eq_some hvalue).2]
      exact hcalls e (List.mem_cons_self ..)

/-- **An append that has returned** has added its value. -/
theorem mem_writerOf_of_done (path : String) {moves : List (PoolMove Json MemoryAnswers)} {index : ℕ}
    {m : Member Json MemorySignature String Unit} (hm : (memoryRun path moves).members[index]? = some m)
    (hdone : m.program = .done ()) : index ∈ (memoryRun path moves).trace.filterMap writerOf := by
  have hcoherent := coherent_memoryRun path moves
  have htraced := hcoherent.traced m (List.mem_of_getElem? hm)
  rw [hdone] at htraced
  obtain ⟨earlier, later, hhistory⟩ := htraced
  obtain ⟨pre, e, post, htrace, rfl, hcall, -, hevent⟩ := hcoherent.performed hm hhistory
  have hvalue : valueOf e = some e.call := by
    rw [valueOf, hevent, hcall]
    exact if_pos ⟨rfl, rfl⟩
  refine List.mem_filterMap.mpr ⟨e, by simp [htrace], ?_⟩
  rw [writerOf, hvalue]
  rfl

/-! ### Runs -/

section

variable [JsonText] {path : String}

/-- What is read is what the writes have added, as long as they are clean. -/
def Tells (path : String) (trace : List MemoryTraceEntry) (file : Option (List Char)) : Prop :=
  (∀ e ∈ trace, CleanWrite e ∧ parseJson e.call.compact = some e.call) →
    readJsonlValues path file = .ok (trace.filterMap valueOf)

theorem tells_step {trace : List MemoryTraceEntry} {e : MemoryTraceEntry} {answers : MemoryAnswers}
    (hwrites : WritesInOrder e.call e.earlier e.event.op) (hG : Tells path trace e.before)
    (hans : ((memoryMachine answers).step e.event.op e.before).1 = e.event.ans) :
    Tells path (trace ++ [e]) ((memoryMachine answers).step e.event.op e.before).2 := by
  intro hclean
  have hbefore := hG fun x hx => hclean x (List.mem_append_left _ hx)
  obtain ⟨hlast, hread⟩ := hclean e (by simp)
  rw [readJsonlValues_eq_ok_iff] at hbefore ⊢
  rw [getD_memoryMachine_step hans, mapM_parseJson_append hwrites hlast hread hbefore,
    List.filterMap_append]
  cases hvalue : valueOf e <;> simp [hvalue]

theorem tells_memoryRun (path : String) (moves : List (PoolMove Json MemoryAnswers)) :
    Tells path (memoryRun path moves).trace (memoryRun path moves).world :=
  (Pool.trace_induction (M := memoryMachine) (G := Tells path) (appendJsonl_traced path) (w := none)
    (fun _ => rfl) (fun _ _ _ hG hwrites _ hans => tells_step hwrites hG hans) moves).1

end

/-- **Every value whose append has returned is read, once**, after every run in which the writes of
values are clean and each value is read back from its own text. -/
theorem storeReadable_of_cleanWrites [JsonText] (path : String)
    (moves : List (PoolMove Json MemoryAnswers))
    (hclean : ∀ e ∈ (memoryRun path moves).trace, CleanWrite e)
    (hread : ∀ m ∈ (memoryRun path moves).members, parseJson m.call.compact = some m.call) :
    StoreReadable path (memoryRun path moves) := by
  have hcoherent := coherent_memoryRun path moves
  have hvalues := tells_memoryRun path moves fun e he => by
    obtain ⟨m, hm, hcall⟩ := hcoherent.calls e he
    exact ⟨hclean e he, hcall ▸ hread m (List.mem_of_getElem? hm)⟩
  exact ⟨_, _, hvalues, forall₂_valueOf hcoherent.calls, nodup_writerOf path moves,
    fun index m hm hdone => mem_writerOf_of_done path hm hdone⟩

/-! ### Appends one after the other, and at once -/

def memoryRecord (id : String) : Json := .obj [("id", .str id)]

/-- The two records are read, and nothing else is. -/
@[reducible] def recordsText : JsonText where
  parseJson text :=
    [memoryRecord "mem-1", memoryRecord "mem-2"].find? fun record => record.compact = text

attribute [local instance] recordsText

/-- Every operation works. -/
def smoothAnswers : MemoryAnswers
  | .createDirAll | .openAppend => .ok ()
  | .write _ => .ok ()

/-- A process stops before it has written anything, and a record is appended after another. -/
def sequentialMoves : List (PoolMove Json MemoryAnswers) :=
  .spawn (memoryRecord "mem-1") :: .replicate 2 (.act 0 smoothAnswers) ++
    .spawn (memoryRecord "mem-2") :: .replicate 4 (.act 1 smoothAnswers) ++
    .spawn (memoryRecord "mem-1") :: .replicate 4 (.act 2 smoothAnswers)

theorem storeReadable_sequential :
    StoreReadable "records.jsonl" (memoryRun "records.jsonl" sequentialMoves) :=
  storeReadable_of_cleanWrites "records.jsonl" sequentialMoves (by decide +kernel) (by decide +kernel)

/-- Both values are written before the line of the first is ended. -/
def interleavedMoves : List (PoolMove Json MemoryAnswers) :=
  .spawn (memoryRecord "mem-1") :: .replicate 3 (.act 0 smoothAnswers) ++
    .spawn (memoryRecord "mem-2") :: .replicate 4 (.act 1 smoothAnswers) ++ [.act 0 smoothAnswers]

/-- Both appends return, and their line is no JSON text. -/
theorem not_storeReadable_interleaved :
    ¬ ∀ moves, (∀ m ∈ (memoryRun "records.jsonl" moves).members,
        parseJson m.call.compact = some m.call) →
      StoreReadable "records.jsonl" (memoryRun "records.jsonl" moves) := by
  intro h
  obtain ⟨values, order, hreadable, -⟩ := (h interleavedMoves (by decide +kernel)).readable
  have herror : readJsonlValues "records.jsonl" (memoryRun "records.jsonl" interleavedMoves).world =
      .error "parse records.jsonl line 1" := by decide +kernel
  rw [herror] at hreadable
  cases hreadable

end Ao2
