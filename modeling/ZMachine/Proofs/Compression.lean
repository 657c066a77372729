import ZMachine.Proofs.Action
import ZMachine.Snapshot.Compression

/-!
# Compressed memory is read back

The stored form of a memory, read against the story it was made from, gives that memory.

* `decompress_run`    : a stored run stands for unchanged bytes.
* `decompress_encode` : a row of differences is read back, with a run in progress before it.
* `compress_readsBack` : every memory of the right size can be stored, and is read back.
-/

namespace ZMachine.Compression

theorem decompress_literal {d b : UInt8} {stored story : List UInt8} (h : d ≠ 0) :
    decompress (d :: stored) (b :: story) = do
      return (b ^^^ d) :: (← decompress stored story) := by
  rw [decompress.eq_def]
  exact if_neg h

/-- A stored run of at most 256 bytes stands for as many bytes of the story. -/
theorem decompress_run (run stored story : List UInt8) (h : run.length ≤ 256) :
    decompress (encodeRun run.length ++ stored) (run ++ story) = do
      return run ++ (← decompress stored story) := by
  unfold encodeRun
  by_cases h₀ : run.length = 0
  · rw [if_pos h₀, List.eq_nil_of_length_eq_zero h₀, List.nil_append, List.nil_append]
    cases decompress stored story with
    | ok current => rfl
    | error e => rfl
  · rw [if_neg h₀]
    have hn : (UInt8.ofNat (run.length - 1)).toNat + 1 = run.length := by
      rw [UInt8.toNat_ofNat', Nat.mod_eq_of_lt (by omega)]
      omega
    have hle : run.length ≤ (run ++ story).length := by
      rw [List.length_append]
      omega
    rw [List.cons_append, List.cons_append, List.nil_append, decompress.eq_def]
    simp only [if_true, hn, if_pos hle, List.take_left, List.drop_left]

/-- **A row of differences is read back**, behind a run of unchanged bytes that is not yet
stored. -/
theorem decompress_encode : ∀ (current story run : List UInt8), current.length = story.length →
    run.length ≤ 255 →
    decompress (encode run.length (List.zipWith (· ^^^ ·) current story)) (run ++ story) =
      .ok (run ++ current)
  | [], [], run, _, hrun => by
      have h := decompress_run run [] [] (by omega)
      rw [List.append_nil] at h
      rw [List.zipWith_nil_left, encode, h]
      rfl
  | c :: current, b :: story, run, hl, hrun => by
      have hl' : current.length = story.length := Nat.succ.inj hl
      have hzero : decompress (encode 0 (List.zipWith (· ^^^ ·) current story)) story = .ok current :=
        decompress_encode current story [] hl' (Nat.zero_le _)
      rw [List.zipWith_cons_cons, encode]
      by_cases hd : c ^^^ b = 0
      · have hcb : c = b := UInt8.xor_eq_zero_iff.mp hd
        subst hcb
        rw [if_pos hd]
        have hrun' : (run ++ [c]).length = run.length + 1 := List.length_append
        have hcut : run ++ c :: story = (run ++ [c]) ++ story := by simp
        by_cases hfull : run.length = 255
        · -- The run has grown to the longest that can be stored, and is stored at once.
          have h := decompress_run (run ++ [c])
            (encode 0 (List.zipWith (· ^^^ ·) current story)) story (by omega)
          rw [hrun', hfull, hzero] at h
          rw [if_pos hfull, hcut, h]
          show Except.ok (run ++ [c] ++ current) = _
          rw [List.append_assoc, List.singleton_append]
        · have h := decompress_encode current story (run ++ [c]) hl' (by omega)
          rw [hrun'] at h
          rw [if_neg hfull, hcut, h, List.append_assoc, List.singleton_append]
      · rw [if_neg hd, decompress_run run _ _ (by omega), decompress_literal hd, hzero]
        have hc : b ^^^ (c ^^^ b) = c := by
          rw [UInt8.xor_comm c b, ← UInt8.xor_assoc, UInt8.xor_self, UInt8.zero_xor]
        rw [hc]
        rfl

theorem compress_of_length_eq {current story : List UInt8} (h : current.length = story.length) :
    compress current story = .ok (encode 0 (List.zipWith (· ^^^ ·) current story)) :=
  if_pos h

theorem compress_of_length_ne {current story : List UInt8} (h : current.length ≠ story.length) :
    compress current story = .error (.refused (.sizesDiffer current.length story.length)) :=
  if_neg h

/-- **A memory that was compressed is read back.** -/
theorem decompress_of_compress {current story stored : List UInt8}
    (h : compress current story = .ok stored) : decompress stored story = .ok current := by
  by_cases hl : current.length = story.length
  · rw [compress_of_length_eq hl] at h
    cases h
    exact decompress_encode current story [] hl (Nat.zero_le _)
  · rw [compress_of_length_ne hl] at h
    cases h

/-- **Every memory of the story's size can be compressed and is read back from its stored form**; a
memory of another size is turned down. -/
theorem compress_readsBack (current story : List UInt8) :
    (current.length = story.length →
      ∃ stored, compress current story = .ok stored ∧ decompress stored story = .ok current) ∧
    (current.length ≠ story.length →
      compress current story =
        .error (.refused (.sizesDiffer current.length story.length))) := by
  refine ⟨fun h => ?_, compress_of_length_ne⟩
  have hc := compress_of_length_eq h
  exact ⟨_, hc, decompress_of_compress hc⟩

/-- A run one byte longer than the longest that is stored, a changed byte, and a run up to the
end. -/
theorem longRun_readsBack :
    (∃ stored,
      compress (List.replicate 257 7 ++ 8 :: List.replicate 300 7) (List.replicate 558 7) =
        .ok stored ∧
      decompress stored (List.replicate 558 7) =
        .ok (List.replicate 257 7 ++ 8 :: List.replicate 300 7)) ∧
    compress [1, 2] [1] = .error (.refused (.sizesDiffer 2 1)) := by
  refine ⟨(compress_readsBack _ _).1 ?_, (compress_readsBack _ _).2 (by decide)⟩
  rw [List.length_append, List.length_cons, List.length_replicate, List.length_replicate,
    List.length_replicate]

end ZMachine.Compression
