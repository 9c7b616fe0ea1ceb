import KKTerm.Telnet.Transparency

/-!
# Typed input on the wire

Outside binary mode a carriage return and a line feed are one newline, and either alone is
completed to one or marked as bare. The encoder sees the neighbours of a byte within one call
only, so that two calls agree with one unless they part a newline.
-/

namespace Telnet

open List

/-- The bytes written by calls of `write_input` one after another, outside binary mode. -/
def writeInput (pieces : List (List UInt8)) : List UInt8 :=
  pieces.flatMap (fun data => encodeTelnetInput data false)

/-- The first ends with the carriage return of a newline whose line feed begins the second. -/
def PartsNewline (front back : List UInt8) : Prop :=
  front.getLast? = some carriageReturn ∧ back.head? = some lineFeed

instance (front back : List UInt8) : Decidable (PartsNewline front back) :=
  inferInstanceAs (Decidable (_ ∧ _))

/-- The bytes for one input byte after `previous` and before `next`. -/
def encodeBetween (previous : Option UInt8) (byte : UInt8) (next : Option UInt8) : List UInt8 :=
  (if byte = lineFeed ∧ previous ≠ some carriageReturn then [carriageReturn] else []) ++
    (if byte = iac then [iac] else []) ++ [byte] ++
    (if byte = carriageReturn ∧ next ≠ some lineFeed then [0] else [])

/-- The encoding of the bytes that follow `previous`. -/
def encodeAfter (previous : Option UInt8) : List UInt8 → List UInt8
  | [] => []
  | byte :: rest => encodeBetween previous byte rest.head? ++ encodeAfter (some byte) rest

lemma encodeByte_between (done rest : List UInt8) (byte : UInt8) :
    encodeByte (done ++ byte :: rest) false done.length byte =
      encodeBetween done.getLast? byte rest.head? := by
  have next : (done ++ byte :: rest)[done.length + 1]? = rest.head? := by
    rw [getElem?_append_right (by omega)]
    simp [head?_eq_getElem?]
  have previous : (decide (0 < done.length) &&
      decide ((done ++ byte :: rest)[done.length - 1]? = some carriageReturn)) =
      decide (done.getLast? = some carriageReturn) := by
    cases done using reverseRecOn with
    | nil => rfl
    | append_singleton done last => simp
  simp only [encodeByte, encodeBetween, previous, next]
  simp

lemma encodeTelnetInput_after (input : List UInt8) :
    encodeTelnetInput input false = encodeAfter none input := by
  have along : ∀ (rest done : List UInt8), done ++ rest = input →
      (rest.zipIdx done.length).flatMap (fun entry => encodeByte input false entry.2 entry.1) =
        encodeAfter done.getLast? rest := by
    intro rest
    induction rest with
    | nil => simp [encodeAfter]
    | cons byte rest ih =>
      intro done whole
      have later := ih (done ++ [byte]) (by simpa using whole)
      have here := encodeByte_between done rest byte
      rw [whole] at here
      rw [length_append, getLast?_concat] at later
      rw [zipIdx_cons, flatMap_cons, encodeAfter, here]
      exact congrArg _ later
  exact along input [] rfl

lemma encodeAfter_congr {previous previous' : Option UInt8} {input : List UInt8}
    (same : input.head? = some lineFeed →
      (previous = some carriageReturn ↔ previous' = some carriageReturn)) :
    encodeAfter previous input = encodeAfter previous' input := by
  cases input with
  | nil => rfl
  | cons byte rest =>
    have agree : byte = lineFeed →
        (previous = some carriageReturn ↔ previous' = some carriageReturn) := by
      rintro rfl
      exact same rfl
    simp only [encodeAfter, encodeBetween]
    grind

variable {front back : List UInt8}

/-- Pieces that part no newline are encoded as their whole is. -/
lemma encodeAfter_append (whole : ¬ PartsNewline front back) (previous : Option UInt8)
    (before : front = [] → previous = none) :
    encodeAfter previous (front ++ back) = encodeAfter previous front ++ encodeAfter none back := by
  induction front generalizing previous with
  | nil =>
    rw [before rfl]
    rfl
  | cons byte rest ih =>
    cases rest with
    | nil =>
      have apart : ¬ (byte = carriageReturn ∧ back.head? = some lineFeed) := by
        rintro ⟨rfl, feed⟩
        exact whole ⟨rfl, feed⟩
      have later : encodeAfter (some byte) back = encodeAfter none back := by
        apply encodeAfter_congr
        grind
      simp only [singleton_append, encodeAfter, later, encodeBetween, head?_nil]
      grind
    | cons second rest =>
      have inside : ¬ PartsNewline (second :: rest) back := by simpa [PartsNewline] using whole
      have later := ih inside (some byte) (by simp)
      rw [cons_append, encodeAfter, later, ← append_assoc]
      rfl

lemma length_encodeAfter_parted (parted : PartsNewline front back) (previous : Option UInt8) :
    (encodeAfter previous front ++ encodeAfter none back).length =
      (encodeAfter previous (front ++ back)).length + 2 := by
  induction front generalizing previous with
  | nil => cases parted.1
  | cons byte rest ih =>
    cases rest with
    | nil =>
      obtain ⟨last, first⟩ := parted
      cases back with
      | nil => cases first
      | cons feed after =>
        obtain rfl : byte = carriageReturn := Option.some.inj last
        obtain rfl : feed = lineFeed := Option.some.inj first
        have unlike : carriageReturn ≠ lineFeed ∧ carriageReturn ≠ iac ∧ lineFeed ≠ iac ∧
            lineFeed ≠ carriageReturn := by decide
        simp [encodeAfter, encodeBetween, unlike]
    | cons second rest =>
      have inside : PartsNewline (second :: rest) back := by simpa [PartsNewline] using parted
      have later := ih inside (some byte)
      simp only [cons_append, encodeAfter, length_append, head?_cons] at later ⊢
      omega

/-- No cut between the pieces parts a newline. -/
def CutsBetweenNewlines (pieces : List (List UInt8)) : Prop :=
  ∀ front back, pieces = front ++ back → ¬ PartsNewline front.flatten back.flatten

lemma cutsBetweenNewlines_cons {piece : List UInt8} {rest : List (List UInt8)} :
    CutsBetweenNewlines (piece :: rest) ↔
      ¬ PartsNewline piece rest.flatten ∧ CutsBetweenNewlines rest := by
  have last (front : List UInt8) (some_ : front ≠ []) :
      (piece ++ front).getLast? = front.getLast? := getLast?_append_of_ne_nil _ some_
  constructor
  · intro clean
    refine ⟨by simpa using clean [piece] rest rfl, ?_⟩
    intro front back same parted
    refine clean (piece :: front) back (by rw [same]; rfl) ⟨?_, parted.2⟩
    rw [flatten_cons, last]
    · exact parted.1
    · intro empty
      simp [PartsNewline, empty] at parted
  · rintro ⟨here, clean⟩ front back same parted
    cases front with
    | nil => cases parted.1
    | cons first front =>
      cases same
      by_cases empty : front.flatten = []
      · rw [flatten_cons, empty, append_nil] at parted
        rw [append_eq, flatten_append, empty] at here
        exact here parted
      · refine clean front back rfl ⟨?_, parted.2⟩
        rw [← last _ empty]
        exact parted.1

lemma length_writeInput (pieces : List (List UInt8)) :
    (encodeTelnetInput pieces.flatten false).length ≤ (writeInput pieces).length ∧
      ((writeInput pieces).length = (encodeTelnetInput pieces.flatten false).length →
        CutsBetweenNewlines pieces) := by
  induction pieces with
  | nil =>
    refine ⟨Nat.le_refl _, ?_⟩
    intro _ front back same
    obtain ⟨rfl, rfl⟩ := append_eq_nil_iff.mp same.symm
    exact fun parted => nomatch parted.1
  | cons piece rest ih =>
    obtain ⟨longer, exact_⟩ := ih
    have written : (writeInput (piece :: rest)).length =
        (encodeTelnetInput piece false).length + (writeInput rest).length :=
      length_append
    rw [written]
    simp only [flatten_cons, encodeTelnetInput_after] at longer exact_ ⊢
    rw [cutsBetweenNewlines_cons]
    by_cases parted : PartsNewline piece rest.flatten
    · have two := length_encodeAfter_parted parted none
      rw [length_append] at two
      exact ⟨by omega, by omega⟩
    · have whole := encodeAfter_append parted none (fun _ => rfl)
      rw [whole, length_append]
      exact ⟨by omega, fun same => ⟨parted, exact_ (by omega)⟩⟩

/-- Input is encoded as if it were written at once exactly when no cut between two calls parts
a carriage return from its line feed. -/
theorem writeInput_cut (pieces : List (List UInt8)) :
    writeInput pieces = encodeTelnetInput pieces.flatten false ↔ CutsBetweenNewlines pieces := by
  constructor
  · intro same
    exact (length_writeInput pieces).2 (congrArg length same)
  · intro clean
    induction pieces with
    | nil => rfl
    | cons piece rest ih =>
      have written : writeInput (piece :: rest) =
          encodeTelnetInput piece false ++ writeInput rest := flatMap_cons
      obtain ⟨here, later⟩ := cutsBetweenNewlines_cons.mp clean
      rw [written, ih later, flatten_cons]
      simp only [encodeTelnetInput_after]
      exact (encodeAfter_append here none (fun _ => rfl)).symm

/-- The newline CR LF, typed in two calls, becomes CR NUL CR LF. -/
theorem parted_newline_doubled :
    writeInput [[carriageReturn], [lineFeed]] ≠
      encodeTelnetInput [carriageReturn, lineFeed] false := by
  decide

end Telnet
