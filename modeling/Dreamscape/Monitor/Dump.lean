/-
# Monitor.Dump -- what write_kinfo_to_file writes

The text of a dump, what its writes leave in the file (`writeEntries_stores`), and that
the dump of a list is its rows in order when every write succeeds
(`writeKinfoToFile_exec`).  The text can be read back in one way only: every numeral is
closed by a comma or by the end of the line (`dumpText_injective`), and none is cut by
the fixed buffers.
-/
import Dreamscape.Monitor.Update
import Dreamscape.Theory.Numeral

namespace Dreamscape.Monitor

set_option autoImplicit false

open Theory Kernel

/-! ## The text -/

def countersText (is : List (Fin numEvents)) (counters : Counters) : List Char :=
  is.flatMap fun i => counterText i (counters i)

def rowText (row : U64 × Counters) : List Char :=
  pcText row.1 ++ countersText (List.finRange numEvents) row.2 ++ snprintf 64 ['\n']

def dumpText (rows : List (U64 × Counters)) : List Char := rows.flatMap rowText

theorem toDigits_length_le {b : Nat} (large : 1 < b) {k : Nat} (pos : 0 < k) {v : U64}
    (fits : 2 ^ 64 ≤ b ^ k) : (Nat.toDigits b v.toNat).length ≤ k :=
  (Nat.length_toDigits_le_iff large pos).mpr (Nat.lt_of_lt_of_le v.isLt fits)

/-- The 256-byte buffer holds the longest program counter. -/
theorem pcText_eq (pc : U64) : pcText pc = "PC: 0x".toList ++ Nat.toDigits 16 pc.toNat := by
  have digits : (Nat.toDigits 16 pc.toNat).length ≤ 16 :=
    toDigits_length_le (by decide) (by decide) (by decide)
  apply List.take_of_length_le
  rw [List.length_append, formatHex]
  exact Nat.le_trans (Nat.add_le_add_left digits _) (by decide)

/-- The 64-byte buffer holds the longest counter. -/
theorem counterText_eq (i : Fin numEvents) (v : U64) :
    counterText i v =
      ", Event ".toList ++ Nat.toDigits 10 i.val ++ ": ".toList ++ Nat.toDigits 10 v.toNat := by
  have digits : (Nat.toDigits 10 v.toNat).length ≤ 20 :=
    toDigits_length_le (by decide) (by decide) (by decide)
  have index : (Nat.toDigits 10 i.val).length ≤ 2 :=
    (Nat.length_toDigits_le_iff (by decide) (by decide)).mpr (Nat.lt_trans i.isLt (by decide))
  apply List.take_of_length_le
  rw [List.length_append, List.length_append, List.length_append, formatU64]
  have labels : ", Event ".toList.length = 8 ∧ ": ".toList.length = 2 := by decide
  have same : (formatInt i.val).length = (Nat.toDigits 10 i.val).length := rfl
  omega

/-! ## Unique readability -/

/-- Two rests of a line that begin with a comma or a newline. -/
def StopsNumeral (rest : List Char) : Prop :=
  ∃ c cs, rest = c :: cs ∧ isDigitChar c = false

theorem stops_comma (rest : List Char) (i : Fin numEvents) (v : U64) :
    StopsNumeral (counterText i v ++ rest) := by
  rw [counterText_eq]
  exact ⟨',', _, rfl, by decide⟩

theorem stops_newline (rest : List Char) : StopsNumeral (snprintf 64 ['\n'] ++ rest) :=
  ⟨'\n', rest, rfl, by decide⟩

theorem numeral_stops_unique {b n m : Nat} (large : 1 < b) (small : b ≤ 16)
    {rest rest' : List Char} (stops : StopsNumeral rest) (stops' : StopsNumeral rest')
    (same : b.toDigits n ++ rest = b.toDigits m ++ rest') : n = m ∧ rest = rest' := by
  obtain ⟨c, cs, rfl, outside⟩ := stops
  obtain ⟨c', cs', rfl, outside'⟩ := stops'
  obtain ⟨numbers, rfl, rfl⟩ := numeral_unique large small outside outside' same
  exact ⟨numbers, rfl⟩

theorem counterText_unique {i : Fin numEvents} {v v' : U64} {rest rest' : List Char}
    (stops : StopsNumeral rest) (stops' : StopsNumeral rest')
    (same : counterText i v ++ rest = counterText i v' ++ rest') : v = v' ∧ rest = rest' := by
  rw [counterText_eq, counterText_eq] at same
  simp only [List.append_assoc, List.append_cancel_left_eq] at same
  obtain ⟨values, rests⟩ := numeral_stops_unique (by decide) (by decide) stops stops' same
  exact ⟨BitVec.eq_of_toNat_eq values, rests⟩

theorem countersText_stops (is : List (Fin numEvents)) (counters : Counters) {rest : List Char}
    (stops : StopsNumeral rest) : StopsNumeral (countersText is counters ++ rest) := by
  cases is with
  | nil => exact stops
  | cons i is =>
      rw [countersText, List.flatMap_cons, List.append_assoc]
      exact stops_comma _ i _

theorem countersText_unique {is : List (Fin numEvents)} {c c' : Counters} {rest rest' : List Char}
    (stops : StopsNumeral rest) (stops' : StopsNumeral rest')
    (same : countersText is c ++ rest = countersText is c' ++ rest') :
    (∀ i ∈ is, c i = c' i) ∧ rest = rest' := by
  induction is with
  | nil => exact ⟨fun i inside => absurd inside List.not_mem_nil, same⟩
  | cons i is ih =>
      simp only [countersText, List.flatMap_cons, List.append_assoc] at same ih
      obtain ⟨values, onward⟩ := counterText_unique
        (countersText_stops is c stops) (countersText_stops is c' stops') same
      obtain ⟨others, rests⟩ := ih onward
      refine ⟨fun j inside => ?_, rests⟩
      rcases List.mem_cons.mp inside with rfl | inside
      · exact values
      · exact others j inside

theorem rowText_unique {row row' : U64 × Counters} {rest rest' : List Char}
    (same : rowText row ++ rest = rowText row' ++ rest') : row = row' ∧ rest = rest' := by
  obtain ⟨pc, c⟩ := row
  obtain ⟨pc', c'⟩ := row'
  simp only [rowText, pcText_eq, List.append_assoc, List.append_cancel_left_eq] at same
  obtain ⟨pcs, onward⟩ := numeral_stops_unique (by decide) (by decide)
    (countersText_stops _ c (stops_newline rest)) (countersText_stops _ c' (stops_newline rest')) same
  obtain ⟨counters, rests⟩ := countersText_unique (stops_newline rest) (stops_newline rest') onward
  have agree : c = c' := funext fun i => counters i (List.mem_finRange i)
  exact ⟨Prod.ext (BitVec.eq_of_toNat_eq pcs) agree, List.append_cancel_left rests⟩

theorem rowText_ne_nil (row : U64 × Counters) (rest : List Char) : rowText row ++ rest ≠ [] := by
  rw [rowText, pcText_eq]
  exact List.cons_ne_nil _ _

theorem dumpText_ne_nil {rows : List (U64 × Counters)} (full : rows ≠ []) : dumpText rows ≠ [] := by
  obtain ⟨row, rest, rfl⟩ := List.exists_cons_of_ne_nil full
  exact rowText_ne_nil row (dumpText rest)

/-- **A dump is read in one way.** -/
theorem dumpText_injective {rows rows' : List (U64 × Counters)}
    (same : dumpText rows = dumpText rows') : rows = rows' := by
  induction rows generalizing rows' with
  | nil =>
      cases rows' with
      | nil => rfl
      | cons row' rows' => exact absurd same.symm (rowText_ne_nil row' (dumpText rows'))
  | cons row rows ih =>
      cases rows' with
      | nil => exact absurd same (rowText_ne_nil row (dumpText rows))
      | cons row' rows' =>
          simp only [dumpText, List.flatMap_cons] at same ih
          obtain ⟨rfl, onward⟩ := rowText_unique same
          rw [ih onward]

/-! ## The writes -/

/-- The texts written for one entry, a call each. -/
def entryTexts (row : U64 × Counters) : List (List Char) :=
  pcText row.1 :: (List.finRange numEvents).map (fun i => counterText i (row.2 i)) ++
    [snprintf 64 ['\n']]

/-- The texts a dump writes, in order. -/
def dumpTexts (rows : List (U64 × Counters)) : List (List Char) := rows.flatMap entryTexts

theorem flatten_entryTexts (row : U64 × Counters) : (entryTexts row).flatten = rowText row := by
  simp [entryTexts, rowText, countersText, List.flatMap_def]

theorem flatten_dumpTexts (rows : List (U64 × Counters)) :
    (dumpTexts rows).flatten = dumpText rows := by
  induction rows with
  | nil => rfl
  | cons row rows ih =>
      simp only [dumpTexts, dumpText, List.flatMap_cons, List.flatten_append] at ih ⊢
      rw [flatten_entryTexts, ih]

/-- What the file system keeps of `texts`, written one after the other from call `k` on. -/
def Env.stored (e : Env) : Nat → List (List Char) → List Char
  | _, [] => []
  | k, text :: texts => (e.write k).stored text ++ e.stored (k + 1) texts

theorem stored_append (e : Env) (k : Nat) (texts more : List (List Char)) :
    e.stored k (texts ++ more) = e.stored k texts ++ e.stored (k + texts.length) more := by
  induction texts generalizing k with
  | nil => rfl
  | cons text texts ih =>
      have next : k + 1 + texts.length = k + (texts.length + 1) := by omega
      simp only [List.cons_append, Env.stored, ih, List.append_assoc, List.length_cons, next]

theorem stored_complete {e : Env} (writes : ∀ n, e.write n = .complete) (k : Nat)
    (texts : List (List Char)) : e.stored k texts = texts.flatten := by
  induction texts generalizing k with
  | nil => rfl
  | cons text texts ih => rw [Env.stored, writes, WriteResult.stored, ih, List.flatten_cons]

/-- The file system gives a dump its file and takes every write whole. -/
structure Env.Stores (e : Env) : Prop where
  opens : e.filpOpen = .ok true
  writes : ∀ n, e.write n = .complete

theorem Env.Succeeds.stores {e : Env} (succeeds : e.Succeeds) : e.Stores :=
  ⟨succeeds.opens, succeeds.writes⟩

/-- `file` is open on `name` with `content` written so far. -/
def State.writing (s : State) (file : Nat) (name content : List Char) (calls : Nat) : State :=
  { s with
    files := Function.update s.files name (some content)
    openFiles := Function.update s.openFiles file (some ⟨name, content.length, true, calls⟩) }

section Writes

variable {t : Tid} {e : Env} {s : State} {file : Nat} {name : List Char}

theorem splice_end (content text : List Char) :
    splice content content.length text = content ++ text := by
  simp [splice]

/-- A write adds at the end of the file what the file system keeps of its text. -/
theorem fOpWrite_stores (content text : List Char) (calls : Nat) :
    kernel t e (.fOpWrite file text) (s.writing file name content calls) =
      .done () (s.writing file name (content ++ (e.write calls).stored text) (calls + 1)) := by
  simp [kernel, State.onFile, State.writing, splice_end]

theorem fOpWrite_kernel (writes : ∀ n, e.write n = .complete) (content text : List Char)
    (calls : Nat) :
    kernel t e (.fOpWrite file text) (s.writing file name content calls) =
      .done () (s.writing file name (content ++ text) (calls + 1)) := by
  rw [fOpWrite_stores, writes, WriteResult.stored]

theorem writeCounters_stores (t : Tid) (e : Env) (file : Nat) (name : List Char) {entry : Ptr}
    {data : CounterData} (held : s.heap entry = some data) (is : List (Fin numEvents))
    (content : List Char) (calls : Nat) :
    (writeCounters file entry is).exec (kernel t e) (s.writing file name content calls) =
      .done () (s.writing file name
        (content ++ e.stored calls (is.map fun i => counterText i (data.counters i)))
        (calls + is.length)) := by
  induction is generalizing content calls with
  | nil => simp [writeCounters, Env.stored]
  | cons i is ih =>
      have read : kernel t e (.entryCounter entry i) (s.writing file name content calls) =
          .done (data.counters i) (s.writing file name content calls) := by
        simp [kernel, State.onEntry, State.writing, held]
      have next : calls + 1 + is.length = calls + (is.length + 1) := by omega
      simp only [writeCounters, entryCounter, fOpWrite, call, Prog.call_bind, Prog.ret_bind,
        Prog.exec_call, read, Outcome.bind_done, fOpWrite_stores, ih]
      simp only [List.map_cons, Env.stored, List.append_assoc, List.length_cons, next]

/-- **The loops of a dump** leave in the file, in order, what each write stored. -/
theorem writeEntries_stores (t : Tid) (e : Env) (file : Nat) (name : List Char) {list : List Ptr}
    (allocated : ∀ p ∈ list, ∃ data, s.heap p = some data) (content : List Char) (calls : Nat) :
    (writeEntries file list).exec (kernel t e) (s.writing file name content calls) =
      .done () (s.writing file name (content ++ e.stored calls (dumpTexts (rowsOf s.heap list)))
        (calls + (dumpTexts (rowsOf s.heap list)).length)) := by
  induction list generalizing content calls with
  | nil => simp [writeEntries, dumpTexts, rowsOf, Env.stored]
  | cons p rest ih =>
      obtain ⟨data, held⟩ := allocated p List.mem_cons_self
      have onward := ih fun q inside => allocated q (List.mem_cons_of_mem p inside)
      have pc : kernel t e (.entryPc p) (s.writing file name content calls) =
          .done data.pc (s.writing file name content calls) := by
        simp [kernel, State.onEntry, State.writing, held]
      have guard : kernel t e (.hasWrite file) (s.writing file name content calls) =
          .done true (s.writing file name content calls) := by
        simp [kernel, State.onFile, State.writing]
      have texts : dumpTexts (rowsOf s.heap (p :: rest)) =
          entryTexts (data.pc, data.counters) ++ dumpTexts (rowsOf s.heap rest) := by
        rw [rowsOf_cons held, dumpTexts, List.flatMap_cons, dumpTexts]
      simp only [writeEntries, entryPc, hasWrite, fOpWrite, call, Prog.call_bind, Prog.ret_bind,
        Prog.exec_call, pc, guard, Outcome.bind_done, fOpWrite_stores, Prog.exec_bind,
        writeCounters_stores t e file name held, if_true, onward, texts]
      simp only [entryTexts, List.cons_append, List.append_assoc, Env.stored, stored_append,
        List.nil_append, List.length_cons, List.length_append, List.length_map]
      congr 2
      omega

theorem writeCounters_exec (t : Tid) (file : Nat) (name : List Char)
    (writes : ∀ n, e.write n = .complete) {entry : Ptr} {data : CounterData}
    (held : s.heap entry = some data) (is : List (Fin numEvents)) (content : List Char)
    (calls : Nat) :
    ∃ calls', (writeCounters file entry is).exec (kernel t e) (s.writing file name content calls) =
      .done () (s.writing file name (content ++ countersText is data.counters) calls') := by
  refine ⟨calls + is.length, ?_⟩
  rw [writeCounters_stores t e file name held, stored_complete writes, ← List.flatMap_def,
    countersText]

theorem writeEntries_exec (t : Tid) (file : Nat) (name : List Char)
    (writes : ∀ n, e.write n = .complete) {list : List Ptr}
    (allocated : ∀ p ∈ list, ∃ data, s.heap p = some data) (content : List Char) (calls : Nat) :
    ∃ calls', (writeEntries file list).exec (kernel t e) (s.writing file name content calls) =
      .done () (s.writing file name (content ++ dumpText (rowsOf s.heap list)) calls') := by
  refine ⟨calls + (dumpTexts (rowsOf s.heap list)).length, ?_⟩
  rw [writeEntries_stores t e file name allocated, stored_complete writes, flatten_dumpTexts]

/-- The state after a dump for `pid` in which nothing failed. -/
def State.dumped (s : State) (pid : Int) : State :=
  { s with
    files := Function.update s.files (dumpName pid) (some (dumpText s.rows))
    openFiles := Function.update s.openFiles s.nextFile none
    nextFile := s.nextFile + 1 }

/-- **A dump that meets no failure writes the rows of the list** to the file named
after the pid.  The file is closed and the address limit is what it was. -/
theorem writeKinfoToFile_exec (stores : e.Stores) (linked : Linked s) (pid : Int) :
    (writeKinfoToFile pid).exec (kernel t e) s = .done () (s.dumped pid) := by
  let opened : State :=
    { s with
      nextFile := s.nextFile + 1
      addrLimit := Function.update s.addrLimit t .kernelDs }
  obtain ⟨calls, dumped⟩ := writeEntries_exec (s := opened) t s.nextFile
    (dumpName pid) stores.writes linked.allocated [] 0
  have begun : (writeKinfoToFile pid).exec (kernel t e) s =
      ((writeEntries s.nextFile s.counterList).exec (kernel t e)
        (opened.writing s.nextFile (dumpName pid) [] 0)).bind fun _ s' =>
          (do setFs (s.addrLimit t); filpClose s.nextFile : Code Unit).exec (kernel t e) s' := by
    simp [writeKinfoToFile, kernel, stores.opens, State.onFile, State.writing, opened]
  rw [begun, dumped]
  simp [kernel, State.onFile, State.writing, opened, State.rows, State.dumped]

end Writes

/-! ## Nothing is lost -/

def pcField (pc : U64) : List Char := "PC: 0x".toList ++ formatHex pc

def counterField (i : Fin numEvents) (v : U64) : List Char :=
  ", Event ".toList ++ formatInt i.val ++ ": ".toList ++ formatU64 v

/-- The line of one entry, every field in full. -/
def lineText (row : U64 × Counters) : List Char :=
  pcField row.1 ++ (List.finRange numEvents).flatMap (fun i => counterField i (row.2 i)) ++ ['\n']

theorem rowText_eq_lineText (row : U64 × Counters) : rowText row = lineText row := by
  have counters : countersText (List.finRange numEvents) row.2 =
      (List.finRange numEvents).flatMap fun i => counterField i (row.2 i) := by
    rw [countersText]
    congr 1
    funext i
    exact counterText_eq i (row.2 i)
  rw [rowText, pcText_eq, counters]
  rfl

theorem dumpText_eq_lines (rows : List (U64 × Counters)) : dumpText rows = rows.flatMap lineText := by
  rw [dumpText, funext rowText_eq_lineText]

/-- The bytes a dump for `pid` leaves in its file. -/
def dumpedBytes (t : Tid) (e : Env) (s : State) (pid : Int) : Option (List Char) :=
  ((writeKinfoToFile pid).exec (kernel t e) s).state.files (dumpName pid)

/-- **A dump loses nothing**: with every write complete its bytes are the lines of the
entries in list order, no buffer cuts a field, and another list with the same bytes is
the same list. -/
theorem dump_lossless {e : Env} {s : State} (stores : e.Stores) (linked : Linked s) (t : Tid)
    (pid : Int) :
    dumpedBytes t e s pid = some (s.rows.flatMap lineText) ∧
      (∀ pc, pcText pc = pcField pc) ∧ (∀ i v, counterText i v = counterField i v) ∧
      ∀ t' e' s' pid', e'.Stores → Linked s' → dumpedBytes t' e' s' pid' = dumpedBytes t e s pid →
        s'.rows = s.rows := by
  have bytes : ∀ {t e s pid}, e.Stores → Linked s → dumpedBytes t e s pid = some (dumpText s.rows) := by
    intro t e s pid stores linked
    rw [dumpedBytes, writeKinfoToFile_exec stores linked]
    exact Function.update_self ..
  refine ⟨?_, pcText_eq, counterText_eq, fun t' e' s' pid' stores' linked' same => ?_⟩
  · rw [bytes stores linked, dumpText_eq_lines]
  · rw [bytes stores' linked', bytes stores linked, Option.some.injEq] at same
    exact dumpText_injective same

/-- Two entries, one of a kernel address with its first counter at the highest value. -/
def State.twoRows : State :=
  { State.initial with
    counterList := [1, 0]
    heap := fun p =>
      match p with
      | 0 => some ⟨16, fun _ => 1⟩
      | 1 => some ⟨0xffffff8008081000, fun i => if i.val = 0 then 0xffffffffffffffff else 42⟩
      | _ => none
    nextPtr := 2 }

theorem linked_twoRows : Linked .twoRows where
  nodup := by decide
  allocated := by
    intro p inside
    have either : p = 1 ∨ p = 0 := by simpa [State.twoRows] using inside
    rcases either with rfl | rfl <;> exact ⟨_, rfl⟩
  bound := by decide

theorem two_rows_lossless :
    dumpedBytes 0 .quiet .twoRows 5 = some (State.twoRows.rows.flatMap lineText) ∧
      (∀ pc, pcText pc = pcField pc) ∧ (∀ i v, counterText i v = counterField i v) ∧
      ∀ t' e' s' pid', e'.Stores → Linked s' →
        dumpedBytes t' e' s' pid' = dumpedBytes 0 .quiet .twoRows 5 → s'.rows = State.twoRows.rows :=
  dump_lossless (e := .quiet) ⟨rfl, fun _ => rfl⟩ linked_twoRows 0 5

end Dreamscape.Monitor
