import FlowVerdict.Stream
import Mathlib.Data.List.Basic

/-!
# The lines of a stream

A stream is cut after each of its line feeds, whatever the reads in which it arrives and whatever
the buffer takes of them at a time. What is handed on is told by the bytes and the end alone.
-/

namespace FlowVerdict

open Json (Bytes)

def StreamEnd.halt (path : String) : StreamEnd → Halt
  | closed => .failed (.sourceClosed path)
  | failed fault => .failed (.sourceRead path fault)
  | silent => .starved

namespace Stream

variable {σ : Type} {path : String} {fast : σ → Bool} {handle : Bytes → σ → σ} {state : σ}
  {bytes front rest : Bytes} {ending : StreamEnd} {sofar : Bytes} {reads : List Bytes} {s : Stream}

/-- A run of bytes cut after each line feed. -/
def pieces : Bytes → List Bytes
  | [] => []
  | b :: rest =>
    if b = lineFeed then [b] :: pieces rest
    else
      match pieces rest with
      | [] => [[b]]
      | piece :: later => (b :: piece) :: later

/-- The pieces that are handed on: those that hold more than blanks, and the last one, if it has no
line feed, only when the writer is gone. -/
def handedOn (ending : StreamEnd) (bytes : Bytes) : List Bytes :=
  (pieces bytes).filter fun piece =>
    (ending = .closed || piece.contains lineFeed) && !isBlankLine piece

/-- The stream as it comes out of a buffer that takes up to `capacity` bytes of a read. -/
def buffered (capacity : Nat) (s : Stream) : Stream :=
  { s with reads := s.reads.flatMap (chunks capacity) }

/-- Hands records to `handle`, one after the other, until `fast` holds; `last` is how reading comes
to a halt behind the last of them. -/
def serve (fast : σ → Bool) (handle : Bytes → σ → σ) (last : Halt) : List Bytes → σ → Halt × σ
  | [], state => (if fast state then .stopped else last, state)
  | record :: later, state =>
    if fast state then (.stopped, state) else serve fast handle last later (handle record state)

/-- The pieces are the bytes, cut behind their line feeds and nowhere else. -/
theorem pieces_cut (bytes : Bytes) :
    (pieces bytes).flatten = bytes ∧
      (∀ piece ∈ pieces bytes, piece ≠ [] ∧ lineFeed ∉ piece.dropLast) ∧
      ∀ piece ∈ (pieces bytes).dropLast, lineFeed ∈ piece := by
  induction bytes with
  | nil => simp [pieces]
  | cons b bytes ih =>
      obtain ⟨hflatten, hinside, hends⟩ := ih
      rw [pieces]
      split
      · next hfeed =>
          refine ⟨by simp [hflatten], by simpa using hinside, ?_⟩
          cases hpieces : pieces bytes with
          | nil => simp
          | cons piece later =>
              rw [hpieces] at hends
              simpa [hfeed] using hends
      · next hfeed =>
          cases hpieces : pieces bytes with
          | nil =>
              rw [hpieces] at hflatten
              simp [← hflatten]
          | cons piece later =>
              rw [hpieces] at hflatten hinside hends
              have hpiece := hinside piece List.mem_cons_self
              have hlonger : (b :: piece).dropLast = b :: piece.dropLast :=
                List.dropLast_cons_of_ne_nil hpiece.1
              refine ⟨by simp [← hflatten], ?_, ?_⟩
              · refine List.forall_mem_cons.mpr ?_
                refine ⟨⟨List.cons_ne_nil b piece, ?_⟩, fun p hp => hinside p (by simp [hp])⟩
                rw [hlonger, List.mem_cons, not_or]
                exact ⟨fun heq => hfeed heq.symm, hpiece.2⟩
              · cases later with
                | nil => simp
                | cons next later =>
                    simp only [List.dropLast_cons_cons, List.forall_mem_cons] at hends ⊢
                    exact ⟨List.mem_cons_of_mem b hends.1, hends.2⟩

theorem cutLine_append (bytes more : Bytes) : cutLine (bytes ++ more) =
    match cutLine bytes with
    | (front, some rest) => (front, some (rest ++ more))
    | (front, none) => (front ++ (cutLine more).1, (cutLine more).2) := by
  induction bytes with
  | nil => rfl
  | cons b bytes ih =>
      rw [List.cons_append, cutLine, cutLine]
      split
      · rfl
      · rw [ih]
        rcases cutLine bytes with ⟨front, _ | rest⟩ <;> rfl

/-- What is cut off holds a line feed, and it is the first of the pieces. -/
theorem of_cutLine_some (h : cutLine bytes = (front, some rest)) :
    lineFeed ∈ front ∧ bytes = front ++ rest ∧ pieces bytes = front :: pieces rest := by
  induction bytes generalizing front with
  | nil => cases h
  | cons b bytes ih =>
      rw [cutLine] at h
      rw [pieces]
      split at h
      · next hfeed =>
          cases h
          simp [hfeed]
      · next hfeed =>
          cases hcut : cutLine bytes with
          | mk start more =>
              rw [hcut] at h
              cases h
              obtain ⟨hmem, hbytes, hpieces⟩ := ih hcut
              rw [if_neg hfeed, hpieces]
              exact ⟨List.mem_cons_of_mem b hmem, congrArg (b :: ·) hbytes, rfl⟩

/-- Bytes without a line feed are one piece, or none if there are no bytes. -/
theorem of_cutLine_none (h : cutLine bytes = (front, none)) :
    front = bytes ∧ lineFeed ∉ bytes ∧ pieces bytes = if bytes = [] then [] else [bytes] := by
  induction bytes generalizing front with
  | nil =>
      cases h
      exact ⟨rfl, List.not_mem_nil, rfl⟩
  | cons b bytes ih =>
      rw [cutLine] at h
      rw [pieces]
      split at h
      · cases h
      · next hfeed =>
          cases hcut : cutLine bytes with
          | mk start more =>
              rw [hcut] at h
              cases h
              obtain ⟨rfl, hnone, hpieces⟩ := ih hcut
              rw [if_neg hfeed, hpieces]
              refine ⟨rfl, ?_, by cases start <;> rfl⟩
              rw [List.mem_cons, not_or]
              exact ⟨fun heq => hfeed heq.symm, hnone⟩

/-- The next line is cut off the bytes of all reads together. -/
theorem nextFrom_of_some (ending : StreamEnd) (sofar : Bytes)
    (h : cutLine reads.flatten = (front, some rest)) :
    ∃ later, nextFrom ending sofar reads = .line (sofar.reverse ++ front) ⟨later, ending⟩ ∧
      later.flatten = rest := by
  induction reads generalizing sofar front with
  | nil => cases h
  | cons read reads ih =>
      rw [List.flatten_cons, cutLine_append] at h
      cases hcut : cutLine read with
      | mk start more =>
          rw [hcut] at h
          cases more with
          | some more =>
              cases h
              exact ⟨more :: reads, by simp only [nextFrom, hcut, List.reverseAux_eq], rfl⟩
          | none =>
              obtain ⟨rfl, hrest⟩ := Prod.mk.inj h
              obtain ⟨later, hnext, hlater⟩ :=
                ih (start.reverseAux sofar) (Prod.ext rfl hrest)
              refine ⟨later, ?_, hlater⟩
              simp only [nextFrom, hcut, hnext]
              rw [List.reverseAux_eq, List.reverse_append, List.reverse_reverse, List.append_assoc]

/-- Without a line feed, all reads together have been read when the stream ends. -/
theorem nextFrom_of_none (ending : StreamEnd) (sofar : Bytes)
    (h : cutLine reads.flatten = (front, none)) :
    nextFrom ending sofar reads = nextFrom ending (reads.flatten.reverse ++ sofar) [] := by
  induction reads generalizing sofar front with
  | nil => rfl
  | cons read reads ih =>
      rw [List.flatten_cons, cutLine_append] at h
      cases hcut : cutLine read with
      | mk start more =>
          rw [hcut] at h
          cases more with
          | some more => cases h
          | none =>
              obtain ⟨_, hrest⟩ := Prod.mk.inj h
              obtain ⟨rfl, _⟩ := of_cutLine_none hcut
              have hread : nextFrom ending sofar (start :: reads) =
                  nextFrom ending (start.reverseAux sofar) reads := by
                rw [nextFrom, hcut]
              rw [hread, ih _ (Prod.ext rfl hrest), List.reverseAux_eq, List.flatten_cons,
                List.reverse_append, List.append_assoc]

/-- Of the first piece, unless it breaks off, only blanks are not handed on. -/
theorem handedOn_cons {piece : Bytes} (hpieces : pieces bytes = piece :: pieces rest)
    (hwhole : ending = .closed ∨ lineFeed ∈ piece) : handedOn ending bytes =
      (if isBlankLine piece then [] else [piece]) ++ handedOn ending rest := by
  have hkept : (ending = .closed || piece.contains lineFeed) = true := by simpa using hwhole
  rw [handedOn, hpieces, List.filter_cons, hkept, Bool.true_and]
  cases hblank : isBlankLine piece with
  | true => rfl
  | false => rfl

/-- What breaks off is not handed on. -/
theorem handedOn_eq_nil (hopen : ending ≠ .closed) (hfeed : lineFeed ∉ bytes)
    (hpieces : pieces bytes = if bytes = [] then [] else [bytes]) : handedOn ending bytes = [] := by
  rw [handedOn, hpieces]
  split
  · rfl
  · simp [hopen, hfeed]

/-- What the next step of reading finds: a line, behind which the other pieces are left, or the
end, with no piece left that is handed on. -/
inductive Finds (s : Stream) : Next → Prop where
  | line {line : Bytes} {rest : Stream} (ending : rest.ending = s.ending)
      (shorter : rest.size < s.size)
      (pieces : handedOn s.ending s.reads.flatten =
        (if isBlankLine line then [] else [line]) ++ handedOn s.ending rest.reads.flatten) :
      Finds s (.line line rest)
  | ended (nothing : handedOn s.ending s.reads.flatten = []) : Finds s (.ended s.ending)

theorem finds_next (s : Stream) : s.Finds s.next := by
  obtain ⟨reads, ending⟩ := s
  cases hcut : cutLine reads.flatten with
  | mk front more =>
      cases more with
      | some rest =>
          obtain ⟨later, hnext, rfl⟩ := nextFrom_of_some ending [] hcut
          obtain ⟨hfeed, hbytes, hpieces⟩ := of_cutLine_some hcut
          rw [next, hnext]
          refine .line rfl ?_ (handedOn_cons hpieces (.inr hfeed))
          have hlength : 0 < front.length := List.length_pos_of_mem hfeed
          simp only [size, hbytes, List.length_append]
          omega
      | none =>
          have hnext := nextFrom_of_none ending [] hcut
          obtain ⟨_, hfeed, hpieces⟩ := of_cutLine_none hcut
          rw [List.append_nil] at hnext
          rw [next, hnext]
          by_cases hopen : ending = .closed
          · subst hopen
            by_cases hbytes : reads.flatten = []
            · rw [hbytes]
              refine .ended ?_
              rw [handedOn, hpieces, if_pos hbytes, List.filter_nil]
            · rw [if_neg hbytes] at hpieces
              have hline : nextFrom .closed reads.flatten.reverse [] =
                  .line reads.flatten ⟨[], .closed⟩ := by
                simp [nextFrom, hbytes]
              rw [hline]
              refine .line rfl ?_ (handedOn_cons hpieces (.inl rfl))
              exact List.length_pos_iff.mpr hbytes
          · have hended : nextFrom ending reads.flatten.reverse [] = .ended ending := by
              cases ending with
              | closed => exact absurd rfl hopen
              | failed fault => rfl
              | silent => rfl
            rw [hended]
            exact .ended (handedOn_eq_nil hopen hfeed hpieces)

/-- Reading serves the records of the stream, given enough fuel. -/
theorem readWithin_eq {fuel : Nat} (hfuel : s.size < fuel) (state : σ) :
    readWithin path fast handle fuel s state =
      serve fast handle (s.ending.halt path) (handedOn s.ending s.reads.flatten) state := by
  induction fuel generalizing s state with
  | zero => omega
  | succ fuel ih =>
      rw [readWithin]
      cases hfast : fast state with
      | true =>
          cases handedOn s.ending s.reads.flatten <;> simp [serve, hfast]
      | false =>
          have hfinds := s.finds_next
          cases hnext : s.next with
          | line line rest =>
              rw [hnext] at hfinds
              cases hfinds with
              | line hending hshorter hpieces =>
                  rw [hpieces]
                  dsimp only
                  rw [ih (by omega), hending]
                  cases isBlankLine line with
                  | true => rfl
                  | false => simp [serve, hfast]
          | ended ending =>
              rw [hnext] at hfinds
              cases hfinds with
              | ended hnothing =>
                  rw [hnothing]
                  cases s.ending <;> simp [serve, hfast, StreamEnd.halt]

theorem flatten_chunks (capacity : Nat) (bytes : Bytes) :
    (chunks capacity bytes).flatten = bytes := by
  have hgo : ∀ (fuel : Nat) (bytes : Bytes), bytes.length ≤ fuel →
      (chunks.go capacity fuel bytes).flatten = bytes := by
    intro fuel
    induction fuel with
    | zero =>
        intro bytes hlength
        rw [List.length_eq_zero_iff.mp (Nat.le_zero.mp hlength)]
        rfl
    | succ fuel ih =>
        intro bytes hlength
        cases bytes with
        | nil => rfl
        | cons b bytes =>
            rw [chunks.go, List.flatten_cons, ih _ (by simp at hlength ⊢; omega),
              List.take_append_drop]
            simp
  exact hgo bytes.length bytes (Nat.le_refl _)

/-- Neither reads nor the buffer matter to the bytes. -/
theorem flatten_buffered (capacity : Nat) (s : Stream) :
    (s.buffered capacity).reads.flatten = s.reads.flatten := by
  obtain ⟨reads, ending⟩ := s
  induction reads with
  | nil => rfl
  | cons read reads ih =>
      have hcons : (buffered capacity ⟨read :: reads, ending⟩).reads.flatten =
          (chunks capacity read).flatten ++ (buffered capacity ⟨reads, ending⟩).reads.flatten :=
        List.flatten_append
      rw [hcons, flatten_chunks, ih, List.flatten_cons]

/-- Serving stops at the first record behind which `fast` holds. -/
theorem serve_eq (last : Halt) (records : List Bytes) (state : σ) :
    let after (n : Nat) : σ :=
      (records.take n).foldl (fun state record => handle record state) state
    (∀ n ≤ records.length, fast (after n) = true → (∀ k < n, fast (after k) = false) →
        serve fast handle last records state = (.stopped, after n)) ∧
      ((∀ k ≤ records.length, fast (after k) = false) →
        serve fast handle last records state = (last, after records.length)) := by
  induction records generalizing state with
  | nil =>
      refine ⟨fun n hn hfast _ => ?_, fun hnever => ?_⟩
      · cases Nat.le_zero.mp hn
        exact Prod.ext (if_pos hfast) rfl
      · have hgoes : ¬ fast state = true := ne_true_of_eq_false (hnever 0 (Nat.le_refl 0))
        exact Prod.ext (if_neg hgoes) rfl
  | cons record records ih =>
      obtain ⟨hstops, hends⟩ := ih (handle record state)
      refine ⟨fun n hn hfast hbefore => ?_, fun hnever => ?_⟩
      · cases n with
        | zero => exact if_pos hfast
        | succ n =>
            have hgoes : ¬ fast state = true :=
              ne_true_of_eq_false (hbefore 0 (Nat.zero_lt_succ n))
            refine (if_neg hgoes).trans (hstops n (Nat.le_of_succ_le_succ hn) hfast ?_)
            exact fun k hk => hbefore (k + 1) (Nat.succ_lt_succ hk)
      · have hgoes : ¬ fast state = true := ne_true_of_eq_false (hnever 0 (Nat.zero_le _))
        refine (if_neg hgoes).trans (hends ?_)
        exact fun k hk => hnever (k + 1) (Nat.succ_le_succ hk)

/-- However the bytes of a stream come in reads, and whatever the buffer takes of them at a time,
the pieces that hold more than blanks are handed on in their order and as they are. If the handling
of the first `n` of them has brought a fast shutdown about, and no fewer have, reading stops there
without a failure; if none brings it about, all of them are handed on, and reading fails with what
ended the stream. -/
theorem pieces_handed_on (path : String) (fast : σ → Bool) (handle : Bytes → σ → σ) (s : Stream)
    (capacity : Nat) (state : σ) :
    let records := handedOn s.ending s.reads.flatten
    let after (n : Nat) : σ :=
      (records.take n).foldl (fun state record => handle record state) state
    (∀ n ≤ records.length, fast (after n) = true → (∀ k < n, fast (after k) = false) →
        (s.buffered capacity).readLines path fast handle state = (.stopped, after n)) ∧
      ((∀ k ≤ records.length, fast (after k) = false) →
        (s.buffered capacity).readLines path fast handle state =
          (s.ending.halt path, after records.length)) := by
  have hserved : (s.buffered capacity).readLines path fast handle state =
      serve fast handle (s.ending.halt path) (handedOn s.ending s.reads.flatten) state := by
    rw [readLines, readWithin_eq (Nat.lt_succ_self _), flatten_buffered]
    rfl
  rw [hserved]
  exact serve_eq _ _ state

/-- A stream that breaks off in its fourth line. The second line is blank, the third is no text. -/
def exampleArrival : Stream where
  reads := [[0x61], [0x0A, 0x20, 0x0A, 0xFF], [0x0A, 0x62]]
  ending := .failed (.os 5)

/-- Two lines are handed on, and only the first if its handling brings a fast shutdown about. -/
theorem exampleArrival_handed_on :
    (exampleArrival.buffered 2).readLines "pipe" (fun _ => false)
        (fun line lines => lines ++ [line]) [] =
          (.failed (.sourceRead "pipe" (.os 5)), [[0x61, 0x0A], [0xFF, 0x0A]]) ∧
      (exampleArrival.buffered 2).readLines "pipe" (fun lines => !lines.isEmpty)
        (fun line lines => lines ++ [line]) [] = (.stopped, [[0x61, 0x0A]]) := by
  constructor
  · exact (pieces_handed_on "pipe" _ _ exampleArrival 2 []).2 fun _ _ => rfl
  · refine (pieces_handed_on "pipe" _ _ exampleArrival 2 []).1 1 (by decide) (by decide) ?_
    intro k hk
    rw [Nat.lt_one_iff.mp hk]
    rfl

end Stream

end FlowVerdict
