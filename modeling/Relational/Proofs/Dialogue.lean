import Relational.Proofs.Verdict

/-!
The dialogue. Bytes of a line feed occur in a text only where it has one, so the lines of the input
are found again in its bytes. And each is answered by itself, in the way of the one query of the
arguments: the counters, which are all that goes on from line to line, stay as they are.
-/

namespace Relational.Command

/-! ### Lines -/

/-- Lines as they are read. Each ends with its only line feed; the last may go without. -/
inductive Lines : List String → Prop where
  | nil : Lines []
  | last {s : String} (hne : s ≠ "") (hs : '\n' ∉ s.toList) : Lines [s]
  | cons {s : String} {ls : List String} (hs : '\n' ∉ s.toList) (rest : Lines ls) :
      Lines ((s ++ "\n") :: ls)

def bytesOf (s : String) : List UInt8 := s.toUTF8.data.toList

variable {s t : String} {bs : List UInt8} {ls : List String}

lemma bytesOf_eq (s : String) : bytesOf s = s.toList.flatMap String.utf8EncodeChar := by
  have h : s.toByteArray = s.toList.utf8Encode := String.utf8Encode_toList.symm
  rw [bytesOf, String.toUTF8_eq_toByteArray, h, List.utf8Encode, List.toList_data_toByteArray]

lemma bytesOf_append (s t : String) : bytesOf (s ++ t) = bytesOf s ++ bytesOf t := by
  simp [bytesOf_eq]

lemma lineOf_bytesOf (s : String) : lineOf (bytesOf s) = some s := by
  rw [lineOf, bytesOf, Array.toArray_toList]
  exact dif_pos s.isValidUTF8

/-- All bytes of a character that is not among the first 128 are larger. -/
lemma mem_utf8EncodeChar {c : Char} : 10 ∈ String.utf8EncodeChar c ↔ c = '\n' := by
  have hc : c = '\n' ↔ c.val.toNat = 10 := by
    rw [← Char.toNat_inj]
    rfl
  rw [hc, String.utf8EncodeChar]
  generalize c.val.toNat = n
  split_ifs <;> simp [← UInt8.toNat_inj] <;> omega

lemma mem_bytesOf : 10 ∈ bytesOf s ↔ '\n' ∈ s.toList := by
  simp [bytesOf_eq, mem_utf8EncodeChar]

lemma byteLines_append (h : 10 ∉ bs) (rest : List UInt8) :
    byteLines (bs ++ 10 :: rest) = (bs ++ [10]) :: byteLines rest := by
  induction bs with
  | nil => rfl
  | cons b bs ih =>
    rw [List.mem_cons, not_or] at h
    rw [List.cons_append, byteLines, if_neg (Ne.symm h.1), ih h.2]
    rfl

lemma byteLines_of_notMem (h : 10 ∉ bs) (hne : bs ≠ []) : byteLines bs = [bs] := by
  induction bs with
  | nil => exact absurd rfl hne
  | cons b bs ih =>
    rw [List.mem_cons, not_or] at h
    rw [byteLines, if_neg (Ne.symm h.1)]
    by_cases hbs : bs = []
    · rw [hbs]
      rfl
    · rw [ih h.2 hbs]

/-- The bytes of lines are cut into these lines again. -/
lemma linesOf_bytesOf (h : Lines ls) : linesOf (ls.flatMap bytesOf) = ls.map some := by
  induction h with
  | nil => rfl
  | @last s hne hs =>
    have hbytes : bytesOf s ≠ [] := by
      intro heq
      have hnone := lineOf_bytesOf s
      rw [heq] at hnone
      exact hne (Option.some.inj hnone).symm
    rw [List.flatMap_singleton, linesOf, byteLines_of_notMem (mt mem_bytesOf.1 hs) hbytes,
      List.map_singleton, lineOf_bytesOf]
    rfl
  | @cons s ls hs _ ih =>
    have hline : bytesOf s ++ [10] = bytesOf (s ++ "\n") := by
      rw [bytesOf_append]
      rfl
    have hbytes : ((s ++ "\n") :: ls).flatMap bytesOf = bytesOf s ++ 10 :: ls.flatMap bytesOf := by
      rw [List.flatMap_cons, ← hline, List.append_assoc]
      rfl
    rw [hbytes, linesOf, byteLines_append (mt mem_bytesOf.1 hs), hline, List.map_cons,
      lineOf_bytesOf, List.map_cons, ← ih]
    rfl

/-! ### Replies -/

namespace Options

/-- What follows the prompt, line by line: nothing if there is nothing on it, the message if it
cannot be read, and otherwise what the command writes when the line is among its arguments. -/
def response (o : Options) (line : String) : Output :=
  let text := String.ofList (Text.trim line.toList)
  if text = "" then .empty
  else
    match Query.parse text with
    | .ok _ => (run { o with query := some line } []).1
    | .error e => .text (e.message text ++ "\n")

variable {o : Options} {q : Query} {c : Counters} {line : String}

lemma run_line (hq : Query.parse (String.ofList (Text.trim line.toList)) = .ok q) :
    (run { o with query := some line } []).1 = (o.ask q c).1 := by
  have honce := congrArg Prod.fst (once_of_parse (o := { o with query := some line }) hq)
  have hcounters : (o.ask q c).1 = (o.ask q .start).1 := by
    rw [ask, ask, q.run_goal, q.run_goal]
  rw [hcounters]
  exact honce

/-- The reply does not depend on the counters, and leaves them as they are. -/
lemma reply_eq : o.reply line c = (o.response line, c) := by
  unfold reply response
  dsimp only
  split_ifs
  · rfl
  · cases hq : Query.parse (String.ofList (Text.trim line.toList)) with
    | error e => rfl
    | ok q =>
      dsimp only
      rw [run_line (c := c) hq, counters_ask]

lemma replies_eq : o.replies c (ls.map some) =
    .join (ls.map fun l => .text prompt ++ o.response l) ++ .text (prompt ++ farewell) := by
  induction ls with
  | nil => rfl
  | cons l ls ih =>
    have hstep : o.step c (some (some l)) = (o.response l, some c) := by
      rw [step, reply_eq]
    rw [List.map_cons, replies, hstep, List.map_cons]
    dsimp only
    rw [ih, ← Output.append_assoc]
    rfl

/-- **Dialogue**: without a query in the arguments, the lines of the input are answered one by one,
each as if it had been the query, whatever the other lines are; and the exit code is 0. -/
theorem run_dialogue (o : Options) (ls : List String) (ho : o.query = none) (hls : Lines ls) :
    (run o (ls.flatMap bytesOf)).1.out =
      greeting ++ String.join (ls.map fun l => prompt ++ (o.response l).out) ++ prompt ++ farewell ∧
    (run o (ls.flatMap bytesOf)).1.err = String.join (ls.map fun l => (o.response l).err) ∧
    (run o (ls.flatMap bytesOf)).2 = 0 := by
  have hrun : run o (ls.flatMap bytesOf) = (.text greeting ++
      (.join (ls.map fun l => .text prompt ++ o.response l) ++ .text (prompt ++ farewell)), 0) := by
    rw [run, ho]
    dsimp only
    rw [session, linesOf_bytesOf hls, replies_eq]
  rw [hrun]
  refine ⟨?_, ?_, rfl⟩
  · simp [Output.join_eq, Function.comp_def, String.append_assoc]
  · simp [Output.join_eq, Function.comp_def]

/-- Here a query with two solutions stands before an empty line, one that is no query, and a last
one that has no line feed. -/
theorem run_dialogue_mixed :
    ∃ ls, ls = ["true = x | true\n", "\t\n", "x = y z\n", "1 = 2"] ∧ Lines ls ∧
      (run ⟨none, 10, false, .none⟩ (ls.flatMap bytesOf)).1.out = greeting ++
        "?- x = false\nx = true\n?- ?- unconsumed input: 'z'\n?- no\n?- \nGoodbye!\n" ∧
      (run ⟨none, 10, false, .none⟩ (ls.flatMap bytesOf)).2 = 0 := by
  have hls : Lines ["true = x | true\n", "\t\n", "x = y z\n", "1 = 2"] :=
    .cons (s := "true = x | true") (by decide) (.cons (s := "\t") (by decide)
      (.cons (s := "x = y z") (by decide) (.last (by decide) (by decide))))
  obtain ⟨hout, -, hcode⟩ := run_dialogue ⟨none, 10, false, .none⟩ _ rfl hls
  refine ⟨_, rfl, hls, ?_, hcode⟩
  rw [hout]
  decide +kernel

end Options

end Relational.Command
