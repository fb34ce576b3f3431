import PgClickhouse.Basic
import PgClickhouse.Searching
import Mathlib.Algebra.Ring.Nat
import Mathlib.Data.List.TakeWhile

/-!
# Copying an error

What `ch_http_copy_error` leaves in the caller's buffer: as much of the body as fits, cut
between two characters, without the version that the server writes behind the message.
The version is searched from the front, and a message may quote it.
-/

namespace PgClickhouse.Http

open Searching

/-! ## The copy -/

/-- The number of bytes a first byte announces. -/
def pg_utf_mblen (b : UInt8) : Nat :=
  if b &&& 0x80 = 0 then 1
  else if b &&& 0xe0 = 0xc0 then 2
  else if b &&& 0xf0 = 0xe0 then 3
  else if b &&& 0xf8 = 0xf0 then 4
  else 1

theorem pg_utf_mblen_pos (b : UInt8) : 0 < pg_utf_mblen b := by
  unfold pg_utf_mblen
  repeat' split
  all_goals decide

/-- As many whole characters as `limit` bytes hold, up to a terminator. -/
def pg_encoding_mbcliplen (mbstr : Bytes) (limit : Nat) : Nat :=
  match mbstr with
  | [] => 0
  | b :: rest =>
      if b = 0 then 0
      else if pg_utf_mblen b > limit then 0
      else if pg_utf_mblen b = limit then limit
      else
        pg_utf_mblen b +
          pg_encoding_mbcliplen ((b :: rest).drop (pg_utf_mblen b)) (limit - pg_utf_mblen b)
termination_by mbstr.length
decreasing_by
  have positive := pg_utf_mblen_pos b
  rw [List.length_drop, List.length_cons]
  omega

/-- `(int)Min(len, bufsize - 1)`; nothing is copied if it is negative. -/
def clip (len bufsize : Nat) : Nat :=
  (Int.bmod (min len (bufsize - 1) : Nat) (2 ^ 32)).toNat

/-- The bytes in front of the terminator. -/
def cstring (buf : Bytes) : Bytes := buf.takeWhile (· ≠ 0)

/-- What opens the version. -/
def marker : Bytes := ascii " (version "

/-- `none` is the null pointer.  The result is the part of `buf` that is written. -/
def ch_http_copy_error (bufsize : Nat) (data : Option Bytes) : Bytes :=
  let body := data.getD []
  let n := pg_encoding_mbcliplen body (clip body.length bufsize)
  let buf := body.take n ++ [0]
  match find marker (cstring buf) with
  | some version => buf.set version 0
  | none => if 0 < n ∧ buf[n - 1]? = some 10 then buf.set (n - 1) 0 else buf

/-! ## Where the body is cut -/

theorem clip_le (len bufsize : Nat) : clip len bufsize ≤ min len (bufsize - 1) := by
  unfold clip
  rw [Int.bmod_def]
  split <;> omega

/-- Where the clipped copy ends: between two characters, and before the first that does
not fit, or a terminator. -/
theorem mbcliplen_spec (mbstr : Bytes) (limit : Nat) :
    pg_encoding_mbcliplen mbstr limit ≤ limit ∧
      Boundary pg_utf_mblen mbstr (pg_encoding_mbcliplen mbstr limit) ∧
      ∀ i, Boundary pg_utf_mblen mbstr i → pg_encoding_mbcliplen mbstr limit < i → i ≤ limit →
        mbstr[pg_encoding_mbcliplen mbstr limit]? = some 0 := by
  fun_induction pg_encoding_mbcliplen mbstr limit with
  | case1 limit =>
      refine ⟨Nat.zero_le _, .start _, ?_⟩
      intro i boundary after
      cases boundary
      omega
  | case2 limit rest =>
      exact ⟨Nat.zero_le _, .start _, fun _ _ _ _ => rfl⟩
  | case3 limit b rest goesOn tooLong =>
      refine ⟨Nat.zero_le _, .start _, ?_⟩
      intro i boundary after within
      cases boundary <;> omega
  | case4 b rest goesOn =>
      refine ⟨Nat.le_refl _, ?_, fun i _ after within => by omega⟩
      have first := Boundary.next (.start ((b :: rest).drop (pg_utf_mblen b)))
      rwa [Nat.add_zero] at first
  | case5 limit b rest goesOn fits more ih =>
      obtain ⟨within, boundary, last⟩ := ih
      refine ⟨by omega, .next boundary, ?_⟩
      intro i later after inLimit
      cases later with
      | start => omega
      | next later =>
          have stop := last _ later (by omega) (by omega)
          rw [List.getElem?_drop] at stop
          exact stop

/-! ## The string in the buffer -/

theorem zero_not_mem_cstring (buf : Bytes) : 0 ∉ cstring buf := by
  intro mem
  have nonzero := List.mem_takeWhile_imp mem
  simp at nonzero

theorem cstring_of_not_mem {buf : Bytes} (nonzero : 0 ∉ buf) (rest : Bytes) :
    cstring (buf ++ 0 :: rest) = buf := by
  have chars : ∀ b ∈ buf, decide (b ≠ 0) = true := by
    intro b mem
    refine decide_eq_true fun zero => nonzero ?_
    rwa [← zero]
  unfold cstring
  rw [List.takeWhile_append_of_pos chars, List.takeWhile_cons_of_neg (by simp), List.append_nil]

/-- The string ends with the copy or at a terminator in it. -/
theorem cstring_terminated (buf : Bytes) :
    ∃ i, cstring (buf ++ [0]) = buf.take i ∧ (i = buf.length ∨ buf[i]? = some 0) := by
  by_cases mem : 0 ∈ buf
  · obtain ⟨front, back, rfl, first⟩ := List.eq_append_cons_of_mem mem
    refine ⟨front.length, ?_, .inr ?_⟩
    · rw [List.append_assoc, List.cons_append, cstring_of_not_mem first, List.take_left]
    · rw [List.getElem?_append_right (Nat.le_refl _), Nat.sub_self]
      rfl
  · exact ⟨buf.length, by rw [cstring_of_not_mem mem, List.take_length], .inl rfl⟩

/-- A terminator that is written ends the string, unless it ended before. -/
theorem cstring_set {buf : Bytes} {i : Nat} (within : i < buf.length) :
    cstring (buf.set i 0) = (cstring buf).take i := by
  unfold cstring
  induction buf generalizing i with
  | nil => exact absurd within (Nat.not_lt_zero i)
  | cons b rest ih =>
      cases i with
      | zero => simp
      | succ i =>
          rw [List.set_cons_succ, List.takeWhile_cons, List.takeWhile_cons]
          split
          · rw [ih (Nat.lt_of_succ_lt_succ within), List.take_succ_cons]
          · rfl

/-- What the caller reads, from the string that was copied. -/
theorem cstring_copy_error (bufsize : Nat) (data : Option Bytes) :
    let body := data.getD []
    let n := pg_encoding_mbcliplen body (clip body.length bufsize)
    let copied := cstring (body.take n ++ [0])
    cstring (ch_http_copy_error bufsize data) =
      match find marker copied with
      | some version => copied.take version
      | none => if 0 < n ∧ (body.take n ++ [0])[n - 1]? = some 10 then copied.take (n - 1)
          else copied := by
  intro body n copied
  have fits : n ≤ body.length :=
    (mbcliplen_spec body _).1.trans ((clip_le _ _).trans (Nat.min_le_left _ _))
  have length : (body.take n ++ [0]).length = n + 1 := by
    rw [List.length_append, List.length_take, Nat.min_eq_left fits]
    rfl
  have shorter : copied.length ≤ n + 1 := by
    rw [← length]
    exact (List.takeWhile_prefix _).length_le
  unfold ch_http_copy_error
  dsimp only
  split
  · rename_i version found
    have stands : find marker copied = some version := found
    rw [stands]
    refine cstring_set ?_
    obtain ⟨inside, -⟩ := find_eq_some stands
    have long := inside.length_le
    rw [List.length_drop] at long
    have positive : marker.length = 10 := rfl
    change version < (body.take n ++ [0]).length
    omega
  · rename_i found
    have absent : find marker copied = none := found
    rw [absent]
    split
    · rename_i newline
      refine cstring_set ?_
      change n - 1 < (body.take n ++ [0]).length
      omega
    · rfl

/-- A place where no character is cut in two: the walk over the characters stops there, or
a character of one byte begins. -/
def CharBoundary (body : Bytes) (i : Nat) : Prop :=
  Boundary pg_utf_mblen body i ∨ ∃ b, body[i]? = some b ∧ b < 128

/-- What the caller reads begins the body and ends between two of its characters. -/
theorem cut_between (bufsize : Nat) (data : Option Bytes) :
    ∃ i, cstring (ch_http_copy_error bufsize data) = (data.getD []).take i ∧
      i ≤ (data.getD []).length ∧ CharBoundary (data.getD []) i := by
  have said := cstring_copy_error bufsize data
  dsimp only at said
  generalize data.getD [] = body at said ⊢
  obtain ⟨limit, boundary, -⟩ := mbcliplen_spec body (clip body.length bufsize)
  generalize known : pg_encoding_mbcliplen body (clip body.length bufsize) = n at *
  have fits : n ≤ body.length := limit.trans ((clip_le _ _).trans (Nat.min_le_left _ _))
  have length : (body.take n).length = n := by rw [List.length_take, Nat.min_eq_left fits]
  obtain ⟨i, copied, stop⟩ := cstring_terminated (body.take n)
  rw [length] at stop
  have within : i ≤ n := by
    rcases stop with rfl | terminator
    · exact Nat.le_refl _
    · have inside := (List.getElem?_eq_some_iff.mp terminator).1
      omega
  rw [copied, List.take_take, Nat.min_eq_left within] at said
  rw [said]
  have short : (body.take i).length = i := by
    rw [List.length_take, Nat.min_eq_left (within.trans fits)]
  have earlier {j : Nat} (b : UInt8) (inside : body[j]? = some b) (small : b < 128)
      (before : j ≤ i) :
      ∃ k, (body.take i).take j = body.take k ∧ k ≤ body.length ∧ CharBoundary body k := by
    refine ⟨j, ?_, before.trans (within.trans fits), .inr ⟨b, inside, small⟩⟩
    rw [List.take_take, Nat.min_eq_left before]
  split
  · rename_i version found
    obtain ⟨⟨after, stands⟩, -⟩ := find_eq_some found
    have inside : (body.take i)[version]? = some 32 := by
      rw [← Nat.add_zero version, ← List.getElem?_drop, ← stands]
      rfl
    obtain ⟨before, -⟩ := List.getElem?_eq_some_iff.mp inside
    rw [short] at before
    rw [List.getElem?_take_of_lt before] at inside
    exact earlier 32 inside (by decide) before.le
  · split
    · rename_i newline
      obtain ⟨positive, inside⟩ := newline
      by_cases before : n - 1 < i
      · have atNewline : body[n - 1]? = some 10 := by
          rw [List.getElem?_append_left (by omega), List.getElem?_take_of_lt (by omega)] at inside
          exact inside
        exact earlier 10 atNewline (by decide) before.le
      · refine ⟨i, ?_, within.trans fits, ?_⟩
        · rw [List.take_take, Nat.min_eq_right (by omega)]
        · rcases stop with rfl | terminator
          · omega
          · rw [List.getElem?_take_of_lt (by omega)] at terminator
            exact .inr ⟨0, terminator, by decide⟩
    · refine ⟨i, rfl, within.trans fits, ?_⟩
      rcases stop with rfl | terminator
      · exact .inl boundary
      · obtain ⟨before, -⟩ := List.getElem?_eq_some_iff.mp terminator
        rw [length] at before
        rw [List.getElem?_take_of_lt before] at terminator
        exact .inr ⟨0, terminator, by decide⟩

theorem copy_error_length {bufsize : Nat} (positive : 0 < bufsize) (data : Option Bytes) :
    (ch_http_copy_error bufsize data).length ≤ bufsize := by
  have fits := (mbcliplen_spec (data.getD []) (clip (data.getD []).length bufsize)).1.trans
    (clip_le _ _)
  unfold ch_http_copy_error
  dsimp only
  split
  · rw [List.length_set, List.length_append, List.length_take, List.length_singleton]
    omega
  · split
    · rw [List.length_set, List.length_append, List.length_take, List.length_singleton]
      omega
    · rw [List.length_append, List.length_take, List.length_singleton]
      omega

theorem copy_error_terminated (bufsize : Nat) (data : Option Bytes) :
    0 ∈ ch_http_copy_error bufsize data := by
  have copied {body : Bytes} : 0 ∈ body ++ [0] :=
    List.mem_append_right _ (List.mem_singleton_self _)
  have written {buf : Bytes} (terminated : 0 ∈ buf) (i : Nat) : 0 ∈ buf.set i 0 := by
    by_cases inside : i < buf.length
    · exact List.mem_set inside 0
    · rwa [List.set_eq_of_length_le (by omega)]
  unfold ch_http_copy_error
  dsimp only
  split
  · exact written copied _
  · split
    · exact written copied _
    · exact copied

/-! ## Texts -/

theorem pg_utf_mblen_eq (n : Fin 256) :
    pg_utf_mblen (.ofFin n) =
      if n.val < 0xc0 then 1 else if n.val < 0xe0 then 2 else if n.val < 0xf0 then 3
      else if n.val < 0xf8 then 4 else 1 := by
  revert n
  decide +kernel

theorem pg_utf_mblen_ofNat {n : Nat} (byte : n < 256) :
    pg_utf_mblen (UInt8.ofNat n) =
      if n < 0xc0 then 1 else if n < 0xe0 then 2 else if n < 0xf0 then 3
      else if n < 0xf8 then 4 else 1 := by
  have said := pg_utf_mblen_eq ⟨n, byte⟩
  have same : UInt8.ofFin ⟨n, byte⟩ = UInt8.ofNat n := by
    apply UInt8.toNat_inj.mp
    simp
    omega
  rw [same] at said
  exact said

/-- The first byte of a character says how long it is. -/
theorem utf8_announces : Announces pg_utf_mblen String.utf8EncodeChar := by
  intro c
  have valid : c.val.toNat < 0x110000 := by
    rcases c.valid with below | above
    · have small : c.val.toNat < 0xd800 := below
      omega
    · exact above.2
  unfold String.utf8EncodeChar
  dsimp only
  split
  · refine ⟨_, _, rfl, ?_⟩
    rw [pg_utf_mblen_ofNat (by omega), if_pos (by omega)]
    rfl
  · split
    · refine ⟨_, _, rfl, ?_⟩
      rw [pg_utf_mblen_ofNat (by omega), if_neg (by omega), if_pos (by omega)]
      rfl
    · split
      · refine ⟨_, _, rfl, ?_⟩
        rw [pg_utf_mblen_ofNat (by omega), if_neg (by omega), if_neg (by omega), if_pos (by omega)]
        rfl
      · refine ⟨_, _, rfl, ?_⟩
        rw [pg_utf_mblen_ofNat (by omega), if_neg (by omega), if_neg (by omega), if_neg (by omega),
          if_pos (by omega)]
        rfl

/-- The bytes below 128 are characters by themselves. -/
theorem utf8_single {b : UInt8} (small : b < 128) {c : Char} (mem : b ∈ String.utf8EncodeChar c) :
    String.utf8EncodeChar c = [b] := by
  have below : b.toNat < 128 := small
  have large {n : Nat} (least : 128 ≤ n) (byte : n < 256) (same : b = UInt8.ofNat n) : False := by
    rw [same, UInt8.toNat_ofNat'] at below
    omega
  unfold String.utf8EncodeChar at mem ⊢
  dsimp only at mem ⊢
  split at mem
  · rename_i one
    rw [if_pos one, List.mem_singleton.mp mem]
  · exfalso
    split at mem
    · simp only [List.mem_cons, List.not_mem_nil, or_false] at mem
      rcases mem with same | same
      all_goals exact large (by omega) (by omega) same
    · split at mem
      · simp only [List.mem_cons, List.not_mem_nil, or_false] at mem
        rcases mem with same | same | same
        all_goals exact large (by omega) (by omega) same
      · simp only [List.mem_cons, List.not_mem_nil, or_false] at mem
        rcases mem with same | same | same | same
        all_goals exact large (by omega) (by omega) same

/-- Of a text whole characters are copied. -/
theorem text_kept (bufsize : Nat) (text : List Char) :
    ∃ kept, kept <+: text ∧
      cstring (ch_http_copy_error bufsize (some (text.flatMap String.utf8EncodeChar))) =
        kept.flatMap String.utf8EncodeChar := by
  obtain ⟨i, copied, within, between⟩ :=
    cut_between bufsize (some (text.flatMap String.utf8EncodeChar))
  rw [Option.getD_some] at copied within between
  rcases between with boundary | ⟨b, inside, small⟩
  · rw [copied]
    exact boundary.between utf8_announces within
  · obtain ⟨before, here⟩ := List.getElem?_eq_some_iff.mp inside
    have cut := (List.take_append_drop i (text.flatMap String.utf8EncodeChar)).symm
    rw [List.drop_eq_getElem_cons before] at cut
    obtain ⟨kept, front, spelled⟩ :=
      front_of_single (fun c mem => utf8_single (here ▸ small) mem) cut
    exact ⟨kept, front, copied.trans spelled⟩

/-! ## The message in front of the version -/

/-- The words that open the version stand in the message, or across its end. -/
def Quotes (message : Bytes) : Prop :=
  ∃ before after, after ≠ [] ∧ message ++ marker = before ++ marker ++ after

/-- When what is copied of a body is the message in it: the message has no terminator, and
either the words that open the version are copied with it and stand nowhere before, or the
copy ends where the message does, which neither has these words in it nor ends in a line
feed. -/
def MessageCopied (bufsize : Nat) (message rest : Bytes) : Prop :=
  let body := message ++ marker ++ rest
  let limit := clip body.length bufsize
  0 ∉ message ∧
    (¬ Quotes message ∧
        (∃ i, Boundary pg_utf_mblen body i ∧ message.length + marker.length ≤ i ∧ i ≤ limit) ∨
      ¬ marker <:+: message ∧ message.getLast? ≠ some 10 ∧
        Boundary pg_utf_mblen body message.length ∧ message.length = limit)

/-- A message that is copied with the words behind it. -/
theorem copied_marker_iff {message more result other : Bytes}
    (said : result =
      match find marker (message ++ marker ++ more) with
      | some version => (message ++ marker ++ more).take version
      | none => other) :
    result = message ↔ ¬ Quotes message := by
  unfold Quotes
  rw [← find_last_iff]
  match found : find marker (message ++ marker) with
  | none => exact absurd (List.suffix_append _ _).isInfix (find_eq_none_iff.mp found)
  | some i =>
      have inside : i ≤ message.length := by
        have long := (find_eq_some found).1.length_le
        have positive : marker.length = 10 := rfl
        rw [List.length_drop, List.length_append] at long
        omega
      rw [find_append found (by rw [List.length_append]; omega)] at said
      dsimp only at said
      rw [said, List.append_assoc, List.take_append_of_le_length inside, Option.some.injEq]
      constructor
      · intro whole
        have length := congrArg List.length whole
        rw [List.length_take] at length
        omega
      · intro same
        rw [same, List.take_length]

/-- A message that is copied without all of these words. -/
theorem copied_short_iff {message rest : Bytes} {n : Nat}
    (short : n < message.length + marker.length) {result : Bytes}
    (said : result =
      match find marker ((message ++ marker ++ rest).take n) with
      | some version => ((message ++ marker ++ rest).take n).take version
      | none => if 0 < n ∧ ((message ++ marker ++ rest).take n ++ [0])[n - 1]? = some 10 then
            ((message ++ marker ++ rest).take n).take (n - 1)
          else (message ++ marker ++ rest).take n) :
    result = message ↔ n = message.length ∧ ¬ marker <:+: message ∧ message.getLast? ≠ some 10 := by
  have positive : marker.length = 10 := rfl
  have space : (message ++ marker ++ rest)[message.length]? = some 32 := by
    rw [List.append_assoc, List.getElem?_append_right (Nat.le_refl _), Nat.sub_self]
    rfl
  have length : ((message ++ marker ++ rest).take n).length = n := by
    rw [List.length_take, List.length_append, List.length_append]
    omega
  have whole : n = message.length → (message ++ marker ++ rest).take n = message := by
    intro same
    rw [same, List.append_assoc, List.take_left]
  have last : n = message.length → 0 < n →
      ((message ++ marker ++ rest).take n ++ [0])[n - 1]? = message.getLast? := by
    intro same some
    rw [whole same, List.getElem?_append_left (by omega), List.getLast?_eq_getElem?, same]
  match found : find marker ((message ++ marker ++ rest).take n) with
  | some version =>
      rw [found] at said
      dsimp only at said
      have inside := (find_eq_some found).1
      have long := inside.length_le
      rw [List.length_drop, length] at long
      constructor
      · intro same
        have short := congrArg List.length (said.symm.trans same)
        rw [List.length_take, length] at short
        omega
      · rintro ⟨same, absent, -⟩
        rw [whole same] at inside
        exact absurd (inside.isInfix.trans (List.drop_suffix _ _).isInfix) absent
  | none =>
      rw [found] at said
      dsimp only at said
      have absent := find_eq_none_iff.mp found
      by_cases newline : 0 < n ∧ ((message ++ marker ++ rest).take n ++ [0])[n - 1]? = some 10
      · rw [if_pos newline] at said
        obtain ⟨some, feed⟩ := newline
        constructor
        · intro same
          have one := congrArg List.length (said.symm.trans same)
          rw [List.length_take, length] at one
          have place : n - 1 = message.length := by omega
          rw [List.getElem?_append_left (by omega), List.getElem?_take_of_lt (by omega), place,
            space] at feed
          cases feed
        · rintro ⟨same, -, noFeed⟩
          rw [last same some] at feed
          exact absurd feed noFeed
      · rw [if_neg newline] at said
        constructor
        · intro same
          have taken := said.symm.trans same
          have all : n = message.length := by rw [← length, taken]
          rw [taken] at absent
          refine ⟨all, absent, ?_⟩
          intro feed
          have some : 0 < n := by
            rw [all]
            exact List.length_pos_of_ne_nil (by rintro rfl; cases feed)
          exact newline ⟨some, (last all some).trans feed⟩
        · rintro ⟨same, -, -⟩
          rw [said, whole same]

theorem marker_nonzero : 0 ∉ marker := by decide

/-- The message comes out exactly if it is copied in one of these two ways. -/
theorem copied_message_iff (bufsize : Nat) (message rest : Bytes) :
    cstring (ch_http_copy_error bufsize (some (message ++ marker ++ rest))) = message ↔
      MessageCopied bufsize message rest := by
  have said := cstring_copy_error bufsize (some (message ++ marker ++ rest))
  simp only [Option.getD_some] at said
  unfold MessageCopied
  dsimp only
  generalize cstring (ch_http_copy_error bufsize (some (message ++ marker ++ rest))) = result
    at said ⊢
  generalize bodyIs : message ++ marker ++ rest = body at said ⊢
  have clipped : clip body.length bufsize ≤ body.length :=
    (clip_le _ _).trans (Nat.min_le_left _ _)
  generalize clip body.length bufsize = limit at said clipped ⊢
  obtain ⟨within, boundary, last⟩ := mbcliplen_spec body limit
  generalize pg_encoding_mbcliplen body limit = n at said within boundary last
  by_cases nonzero : 0 ∈ message
  · refine iff_of_false ?_ (fun copied => copied.1 nonzero)
    intro same
    have none := zero_not_mem_cstring (body.take n ++ [0])
    have part : result <+: cstring (body.take n ++ [0]) := by
      rw [said]
      split
      · exact List.take_prefix _ _
      · split
        · exact List.take_prefix _ _
        · exact List.prefix_rfl
    rw [same] at part
    exact none (part.subset nonzero)
  -- the copy goes on past a place only if there is no terminator
  have front : 0 ∉ message ++ marker := by
    rw [List.mem_append]
    exact not_or.mpr ⟨nonzero, marker_nonzero⟩
  have goesOn : n < message.length + marker.length → body[n]? ≠ some 0 := by
    intro short terminator
    rw [← bodyIs, List.getElem?_append_left (by rw [List.length_append]; omega)] at terminator
    exact front (List.mem_of_getElem? terminator)
  by_cases long : message.length + marker.length ≤ n
  · -- all of the words are copied
    obtain ⟨more, copied⟩ : ∃ more, cstring (body.take n ++ [0]) = message ++ marker ++ more := by
      have taken :
          body.take n = message ++ marker ++ rest.take (n - (message ++ marker).length) := by
        rw [← bodyIs, List.take_append, List.take_of_length_le]
        rw [List.length_append]
        omega
      have chars : ∀ b ∈ message ++ marker, decide (b ≠ 0) = true := by
        intro b mem
        refine decide_eq_true fun zero => front ?_
        rwa [← zero]
      unfold cstring
      rw [taken, List.append_assoc, List.takeWhile_append_of_pos chars]
      exact ⟨_, rfl⟩
    rw [copied] at said
    rw [copied_marker_iff said]
    constructor
    · intro noQuote
      exact ⟨nonzero, .inl ⟨noQuote, n, boundary, long, within⟩⟩
    · rintro ⟨-, ⟨noQuote, -⟩ | ⟨-, -, -, ends⟩⟩
      · exact noQuote
      · have positive : marker.length = 10 := rfl
        omega
  · have short : n < message.length + marker.length := by omega
    have copied : cstring (body.take n ++ [0]) = body.take n := by
      refine cstring_of_not_mem ?_ []
      rw [← bodyIs, List.take_append_of_le_length (by rw [List.length_append]; omega)]
      exact fun mem => front (List.mem_of_mem_take mem)
    rw [copied, ← bodyIs] at said
    rw [copied_short_iff short said]
    -- the copy ends with the message if it is all that fits
    have ends : n = message.length ↔
        Boundary pg_utf_mblen body message.length ∧ message.length = limit := by
      constructor
      · intro same
        rw [same] at boundary within last
        refine ⟨boundary, ?_⟩
        by_contra more
        have space : body.drop message.length = 32 :: (marker.tail ++ rest) := by
          rw [← bodyIs, List.append_assoc, List.drop_left]
          rfl
        have blank : pg_utf_mblen 32 = 1 := by decide
        have next := boundary.step space
        rw [blank] at next
        have terminator := last _ next (by omega) (by omega)
        exact goesOn short (same ▸ terminator)
      · rintro ⟨whole, same⟩
        by_contra other
        exact goesOn short (last _ whole (by omega) (by omega))
    rw [ends]
    constructor
    · rintro ⟨⟨whole, same⟩, absent, noFeed⟩
      exact ⟨nonzero, .inr ⟨absent, noFeed, whole, same⟩⟩
    · rintro ⟨-, ⟨-, i, whole, enough, inLimit⟩ | ⟨absent, noFeed, whole, same⟩⟩
      · exact absurd (last i whole (by omega) inLimit) (goesOn short)
      · exact ⟨⟨whole, same⟩, absent, noFeed⟩

/-- For every body and every buffer of at least one byte: what is written stays in the
buffer and is terminated, and what the caller reads begins the body and ends between two
characters.  The message in front of a version comes out exactly if it has no terminator
and either the words that open the version fit behind it and it does not quote them, or
the copy happens to end where it does. -/
theorem error_copied (bufsize : Nat) (positive : 0 < bufsize) :
    (∀ data : Option Bytes,
      (ch_http_copy_error bufsize data).length ≤ bufsize ∧ 0 ∈ ch_http_copy_error bufsize data ∧
      (∃ i, cstring (ch_http_copy_error bufsize data) = (data.getD []).take i ∧
        i ≤ (data.getD []).length ∧ CharBoundary (data.getD []) i) ∧
      ∀ text : List Char, data = some (text.flatMap String.utf8EncodeChar) →
        ∃ kept, kept <+: text ∧
          cstring (ch_http_copy_error bufsize data) = kept.flatMap String.utf8EncodeChar) ∧
    ∀ message rest : Bytes,
      cstring (ch_http_copy_error bufsize (some (message ++ marker ++ rest))) = message ↔
        MessageCopied bufsize message rest := by
  refine ⟨fun data => ⟨?_, ?_, cut_between bufsize data, ?_⟩, copied_message_iff bufsize⟩
  · exact copy_error_length positive data
  · exact copy_error_terminated bufsize data
  · rintro text rfl
    exact text_kept bufsize text

theorem error_copied_closed :
    cstring (ch_http_copy_error 4096 (some (ascii "Code: 62" ++ marker ++ ascii "25.8.1.1)"))) =
        ascii "Code: 62" ↔
      MessageCopied 4096 (ascii "Code: 62") (ascii "25.8.1.1)") :=
  (error_copied 4096 (by decide)).2 _ _

/-- The error about a query with a string that opens a version ends at that string. -/
theorem error_quoting_version :
    cstring (ch_http_copy_error 4096 (some (
      ascii "Code: 47. DB::Exception: Unknown identifier x in SELECT x, ' (version 1)'" ++ marker ++
        ascii "25.8.1.1 (official build))"))) ≠
      ascii "Code: 47. DB::Exception: Unknown identifier x in SELECT x, ' (version 1)'" := by
  rw [ne_eq, copied_message_iff]
  rintro ⟨-, ⟨noQuote, -⟩ | ⟨absent, -⟩⟩
  · exact noQuote ⟨ascii "Code: 47. DB::Exception: Unknown identifier x in SELECT x, '",
      ascii "1)'" ++ marker, by decide, by decide⟩
  · exact absent ⟨ascii "Code: 47. DB::Exception: Unknown identifier x in SELECT x, '",
      ascii "1)'", by decide⟩

end PgClickhouse.Http
