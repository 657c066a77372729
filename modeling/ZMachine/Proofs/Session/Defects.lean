import ZMachine.Proofs.Lookups
import ZMachine.Proofs.Operation.Defects
import ZMachine.Proofs.Session.Bounds

/-!
# No step meets a defect

A step decodes an instruction, reads its operands and carries an operation out. None of these looks
anything up that is missing, whatever memory, stack, frames, input and saved games hold, as long as
text can be decoded.

* `Session.cleanAt_step`       : a step meets no defect.
* `Session.step_looksUpNothingMissing` : that, and the look-ups that have no defect to report.
-/

namespace ZMachine.Session

open ZMachine.Action

variable {H : Host} {s : Session H}

theorem Legible.of_eq {t : Session H} (hs : s.Legible) (hm : t.machine.memory = s.machine.memory)
    (hd : t.decoder = s.decoder) : t.Legible :=
  ⟨hm ▸ hs.first, hd ▸ hs.decoder⟩

theorem cleanAt_execute (hH : H.Careful) (hs : s.Legible) (i : Instruction) :
    CleanAt s (execute i) := by
  refine (careful_get s).bind_reads keeps_get fun _ => ?_
  split
  · refine careful_throw ?_ s
    exact nofun
  · rename_i op _
    refine cleanAt_bind.mpr ⟨careful_onMachine (Machine.careful_resolve i.operands) s, ?_⟩
    intro args t ht
    -- Reading the operands leaves memory alone, so text can still be decoded.
    obtain ⟨m, hm, rfl⟩ := onMachine_eq_ok.mp ht
    have hmemory : m.memory = s.machine.memory := ((Machine.keeps_resolve i.operands).ok hm).memory
    have hready : ({ s with machine := m } : Session H).Legible := hs.of_eq hmemory rfl
    exact op.cleanAt_perform hH hready i args

theorem cleanAt_executeNext (hH : H.Careful) (hs : s.Legible) : CleanAt s executeNext := by
  refine (careful_get s).bind_reads keeps_get fun s' => ?_
  refine (careful_lift (Instruction.clean_decode _ _ _) s).bind_reads (keeps_lift _) fun i => ?_
  refine cleanAt_bind.mpr ⟨careful_modify _ s, ?_⟩
  intro u t ht
  cases ht
  have hadvanced : (s.advance i).Legible := hs.of_eq rfl rfl
  exact cleanAt_execute hH hadvanced i

/-- **A step meets no defect** in a session whose text can be decoded. -/
theorem cleanAt_step (hH : H.Careful) (hs : s.Legible) : CleanAt s step := by
  intro site t h
  unfold step at h
  split at h
  · cases h
  · have hn := cleanAt_executeNext hH hs
    split at h
    · exact (careful_flush.bind fun _ => careful_pure _) _ site t h
    · cases h
    · rename_i e u hx
      cases h
      exact hn site u hx

/-- **No step looks up what is missing**, whatever its session holds: it reports no missing
character, local, operand or part of the story, as long as text can be decoded; and no element,
stretch or difference that it relies on is ever missing. -/
theorem step_looksUpNothingMissing (hH : H.Careful) (hs : s.Legible) :
    (∀ site t, step s ≠ .error (.defect site) t) ∧ ∀ e, SpelledOut e :=
  ⟨cleanAt_step hH hs, spelledOut⟩

/-- A story that was loaded decodes text with the decoder of this library. -/
theorem decoder_started (image : Array UInt8) (settings : Settings) :
    (started image settings).decoder = ZString.decode := by
  unfold started
  cases h : load image ⟨[], []⟩ {} 0 with
  | error e => rfl
  | ok s =>
      obtain ⟨m, -, h⟩ := except_bind_eq_ok.mp h
      split at h
      · cases h
      · cases h
        rfl

/-- A story in version 5 that prints an abbreviation, a capital, a small letter and a sign. -/
def lettered : Array UInt8 :=
  #[5, 0, 0, 0, 0, 0, 0, 0x40, 0, 0, 0, 0, 0, 0, 0, 0x40,
    0, 0, 0, 0, 0, 0, 0, 0, 0, 0x48, 0, 0, 0, 0, 0, 0,
    0, 0, 0, 0, 0, 0, 0, 0, 0, 0, 0, 0, 0, 0, 0, 0,
    0, 0, 0, 0, 0, 0, 0, 0, 0, 0, 0, 0, 0, 0, 0, 0,
    0xb2, 0x04, 0x04, 0x35, 0xc5, 0xd0, 0xa5, 0xba, 0, 0x25, 0xd2, 0]

/-- Its first step, and the text this prints. -/
theorem lettered_looksUpNothingMissing :
    Reached lettered (started lettered {}) ∧ Host.standard.Careful ∧ (started lettered {}).Legible ∧
      (started lettered {}).operation? = some .print ∧
      ((started lettered {}).following 1).sink.written.data.toList = "ok Hi!".toUTF8.data.toList ∧
      (∀ site t, step (started lettered {}) ≠ .error (.defect site) t) ∧ ∀ e, SpelledOut e := by
  have hs : (started lettered {}).Legible := by
    refine ⟨fun b h => ?_, .inl (decoder_started _ _)⟩
    have hfirst : Header.version (started lettered {}).machine.memory = .ok 5 :=
      eq_ok_of_toOption (by decide +kernel)
    cases h.symm.trans hfirst
    decide
  exact ⟨reached_started (by decide +kernel) 0, Host.standard_careful, hs, by decide +kernel,
    by decide +kernel, step_looksUpNothingMissing Host.standard_careful hs⟩

end ZMachine.Session
