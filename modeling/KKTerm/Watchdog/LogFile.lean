import KKTerm.Library.Text
import KKTerm.Library.Utf8
import Mathlib.Data.List.Pairwise

/-!
# Watching a log file

Each poll scans what was appended since the size that the previous poll
returned, at most one megabyte of it, and remembers the full new size. An
occurrence of the pattern is seen exactly when one scan covers all of it.
-/

namespace Watchdog

open Utf8 hiding after
open List

/-- One read is capped at one megabyte. -/
def readCap : Nat := 1000000

def readFileRange (file : Option (List UInt8)) (offset len : Nat) : Option (List Char) :=
  file.map (fun bytes => Utf8.fromUtf8Lossy ((bytes.drop offset).take (min len readCap)))

/-- `metadata` is the file when its size is asked for, `file` when it is read. -/
def scanLogAppended (metadata file : Option (List UInt8)) (lastSize : Option Nat)
    (pattern : List Char) : Option Nat × Bool :=
  match metadata with
  | none => (none, false)
  | some found =>
    let size := found.length
    match lastSize with
    -- The first poll is a baseline only.
    | none => (some size, false)
    | some last =>
      if size ≤ last then (some size, false)
      else
        (some size,
          ((readFileRange file last (size - last)).map (Text.contains · pattern)).getD false)

/-- What happens to a log file that is never truncated; `meanwhile` is appended
during a poll, between the two looks at the file. -/
inductive LogEvent where
  | append (bytes : List UInt8)
  | poll (meanwhile : List UInt8)

structure LogWatch where
  file : List UInt8
  lastSize : Option Nat
  reports : List Bool

namespace LogWatch

def new (file : List UInt8) : LogWatch :=
  { file, lastSize := none, reports := [] }

def step (pattern : List Char) (w : LogWatch) : LogEvent → LogWatch
  | .append bytes => { w with file := w.file ++ bytes }
  | .poll meanwhile =>
    let file := w.file ++ meanwhile
    let (lastSize, matched) := scanLogAppended (some w.file) (some file) w.lastSize pattern
    { file, lastSize, reports := w.reports ++ [matched] }

def run (pattern : List Char) (w : LogWatch) (events : List LogEvent) : LogWatch :=
  events.foldl (step pattern) w

end LogWatch

def pollSizes (size : Nat) : List LogEvent → List Nat
  | [] => []
  | .append bytes :: rest => pollSizes (size + bytes.length) rest
  | .poll meanwhile :: rest => size :: pollSizes (size + meanwhile.length) rest

def growth (events : List LogEvent) : List UInt8 :=
  events.flatMap (fun event =>
    match event with
    | .append bytes => bytes
    | .poll meanwhile => meanwhile)

/-- What the poll that finds `size` after a poll that found `last` reads. -/
def scanned (file : List UInt8) (last size : Nat) : List UInt8 :=
  (file.drop last).take (min (size - last) readCap)

lemma scanned_append {file : List UInt8} {last size : Nat} (h : size ≤ file.length)
    (later : List UInt8) : scanned (file ++ later) last size = scanned file last size := by
  unfold scanned
  by_cases behind : last ≤ size
  · rw [drop_append_of_le_length (by omega), take_append_of_le_length (by rw [length_drop]; omega)]
  · simp [show size - last = 0 by omega]

namespace LogWatch
variable {pattern : List Char} {w : LogWatch}

/-- One poll after another: it reports exactly what it scanned. -/
lemma poll_report (ascii : Ascii pattern) (nonempty : pattern ≠ []) {last : Nat}
    (remembered : w.lastSize = some last) (meanwhile : List UInt8) :
    ∃ matched, step pattern w (.poll meanwhile) =
      { file := w.file ++ meanwhile, lastSize := some w.file.length
        reports := w.reports ++ [matched] } ∧
      (matched = true ↔ asciiBytes pattern <:+: scanned w.file last w.file.length) := by
  refine ⟨(scanLogAppended (some w.file) (some (w.file ++ meanwhile)) w.lastSize pattern).2, ?_, ?_⟩
  · simp only [step, scanLogAppended, remembered]
    split <;> rfl
  · simp only [scanLogAppended, remembered]
    by_cases behind : w.file.length ≤ last
    · have nothing : scanned w.file last w.file.length = [] := by
        simp [scanned, show w.file.length - last = 0 by omega]
      rw [if_pos behind, nothing, infix_nil]
      simp [asciiBytes, nonempty]
    · have same := @scanned_append w.file last _ (Nat.le_refl _) meanwhile
      rw [if_neg behind, ← same, ← infix_fromUtf8Lossy ascii nonempty]
      simp [readFileRange, Text.contains, scanned]

/-- Some poll reports a match exactly when one of them scanned it; a first poll only remembers
the size. -/
lemma run_reports (ascii : Ascii pattern) (nonempty : pattern ≠ []) (events : List LogEvent) :
    true ∈ (run pattern w events).reports ↔ true ∈ w.reports ∨
      ∃ pair ∈ (w.lastSize.toList ++ pollSizes w.file.length events).zip
          (w.lastSize.toList ++ pollSizes w.file.length events).tail,
        asciiBytes pattern <:+: scanned (w.file ++ growth events) pair.1 pair.2 := by
  induction events generalizing w with
  | nil => cases remembered : w.lastSize <;> simp [run, pollSizes]
  | cons event rest ih =>
    cases event with
    | append bytes =>
      have later := ih (w := step pattern w (.append bytes))
      simp only [step, length_append, append_assoc] at later
      exact later
    | poll meanwhile =>
      have later := ih (w := step pattern w (.poll meanwhile))
      have unfolded : run pattern w (.poll meanwhile :: rest) =
          run pattern (step pattern w (.poll meanwhile)) rest := rfl
      have whole : growth (.poll meanwhile :: rest) = meanwhile ++ growth rest := rfl
      rw [unfolded, later, whole]
      cases remembered : w.lastSize with
      | none => simp [step, scanLogAppended, remembered, pollSizes]
      | some last =>
        obtain ⟨matched, stepped, seen⟩ := poll_report ascii nonempty remembered meanwhile
        have kept := @scanned_append w.file last _ (Nat.le_refl _) (meanwhile ++ growth rest)
        rw [stepped]
        simp only [pollSizes, length_append, append_assoc, mem_append,
          Option.toList_some, singleton_append, tail_cons, zip_cons_cons,
          mem_cons, exists_eq_or_imp, kept, ← seen, or_assoc, eq_comm (a := true),
          not_mem_nil, false_or]

end LogWatch

lemma le_of_mem_pollSizes {size x : Nat} {events : List LogEvent}
    (h : x ∈ pollSizes size events) : size ≤ x := by
  induction events generalizing size with
  | nil => cases h
  | cons event rest ih =>
    cases event with
    | append bytes =>
      have := ih h
      omega
    | poll meanwhile =>
      rcases mem_cons.mp h with rfl | later
      · omega
      · have := ih later
        omega

lemma pollSizes_sorted (size : Nat) (events : List LogEvent) :
    (pollSizes size events).Pairwise (· ≤ ·) := by
  induction events generalizing size with
  | nil => exact .nil
  | cons event rest ih =>
    cases event with
    | append bytes => exact ih _
    | poll meanwhile =>
      refine pairwise_cons.mpr ⟨fun x hx => ?_, ih _⟩
      have := le_of_mem_pollSizes hx
      omega

lemma between_of_sorted {sizes : List Nat} (sorted : sizes.Pairwise (· ≤ ·)) {x : Nat}
    (h : x ∈ sizes) : sizes.headD 0 ≤ x ∧ x ≤ sizes.getLastD 0 := by
  have nonempty := ne_nil_of_mem h
  constructor
  · have first := sorted.rel_head h
    rwa [headD_eq_head?_getD, head?_eq_some_head nonempty]
  · have last := sorted.rel_getLast h
    rwa [getLastD_eq_getLast?, getLast?_eq_some_getLast nonempty]

/-- A scan between two sizes in the range reads a part of the range. -/
lemma scanned_within (file : List UInt8) {first last size final : Nat} (after : first ≤ last)
    (before : size ≤ final) : scanned file last size <:+: (file.take final).drop first := by
  unfold scanned
  by_cases behind : size ≤ last
  · rw [show size - last = 0 by omega, Nat.zero_min, take_zero]
    exact nil_infix
  · have cut : (file.drop last).take (min (size - last) readCap) =
        ((file.take final).drop last).take (min (size - last) readCap) := by
      rw [drop_take, take_take]
      congr 1
      omega
    have shift : (file.take final).drop last = ((file.take final).drop first).drop (last - first) := by
      rw [drop_drop, Nat.add_sub_cancel' after]
    rw [cut, shift]
    exact (List.take_prefix _ _).isInfix.trans (drop_suffix _ _).isInfix

/-- The bytes appended after the first poll and before the last one. -/
def appended (old : List UInt8) (events : List LogEvent) : List UInt8 :=
  ((old ++ growth events).take ((pollSizes old.length events).getLastD 0)).drop
    ((pollSizes old.length events).headD 0)

/-- A log watch misses nothing and reports nothing else, exactly when the pattern
was not appended between the polls or some occurrence lies wholly within the
first megabyte appended between two consecutive polls. -/
theorem log_watch_complete {pattern : List Char} (ascii : Utf8.Ascii pattern)
    (nonempty : pattern ≠ []) (old : List UInt8) (events : List LogEvent) :
    let w := (LogWatch.new old).run pattern events
    let sizes := pollSizes old.length events
    ((asciiBytes pattern <:+: appended old events → true ∈ w.reports) ∧
      (true ∈ w.reports → asciiBytes pattern <:+: appended old events)) ↔
    (asciiBytes pattern <:+: appended old events →
      ∃ pair ∈ sizes.zip sizes.tail, asciiBytes pattern <:+:
        ((old ++ growth events).drop pair.1).take (min (pair.2 - pair.1) readCap)) := by
  have reports := LogWatch.run_reports (w := .new old) ascii nonempty events
  have noReports : true ∉ (LogWatch.new old).reports := not_mem_nil
  have sorted := pollSizes_sorted old.length events
  -- What a scan sees was appended between the polls.
  have sound : (∃ pair ∈ (pollSizes old.length events).zip (pollSizes old.length events).tail,
      asciiBytes pattern <:+: scanned (old ++ growth events) pair.1 pair.2) →
      asciiBytes pattern <:+: appended old events := by
    rintro ⟨⟨last, size⟩, hpair, seen⟩
    obtain ⟨hlast, hsize⟩ := of_mem_zip hpair
    exact seen.trans (scanned_within _ (between_of_sorted sorted hlast).1
      (between_of_sorted sorted (mem_of_mem_tail hsize)).2)
  constructor
  · rintro ⟨complete, _⟩ occurs
    exact (reports.mp (complete occurs)).resolve_left noReports
  · intro covered
    constructor
    · exact fun occurs => reports.mpr (.inr (covered occurs))
    · exact fun reported => sound ((reports.mp reported).resolve_left noReports)

/-- `ERR` appended between two polls is reported. -/
theorem whole_line_seen :
    true ∈ ((LogWatch.new []).run ['E', 'R', 'R']
      [.poll [], .append [0x45, 0x52, 0x52], .poll []]).reports :=
  ((@log_watch_complete ['E', 'R', 'R'] (by simp [Ascii]) (by simp) []
    [.poll [], .append [0x45, 0x52, 0x52], .poll []]).mpr
      (fun _ => ⟨(0, 3), by decide, by decide⟩)).1 (by decide)

/-- `ERR` is appended in two parts with a poll between them. -/
theorem straddling_line_missed :
    let events : List LogEvent := [.poll [], .append [0x45, 0x52], .poll [], .append [0x52], .poll []]
    asciiBytes ['E', 'R', 'R'] <:+: appended [] events ∧
      ((LogWatch.new []).run ['E', 'R', 'R'] events).reports = [false, false, false] := by
  decide

end Watchdog
