import ZMachine.Proofs.Session.Bracketing

/-!
# Throwing to a caught frame

A routine can catch its frame: it is told how many routines are running. As long as that many frames
still stand as they stood, a throw to this number returns from the frame with the number, however
many routines have been called on top of it. The number has 16 bits, so that a frame too high up is
caught under the number of a lower one.

* `Frame.link`                    : what a frame says about the return from it.
* `Machine.Lowest`                : the values that a return leaves on the stack.
* `Machine.unwound`               : the machine after the frames down to a given one were dropped,
  and that one has returned.
* `Handler.throwTo_of_suffix`, `throwTo_of_le_one` : what a throw does, by the number of its frame.
* `Session.numbered_of_catch`     : which number a frame is caught under.
* `Session.throw_unwinds`         : the catch and any throw to its number.
-/

namespace ZMachine

open ZMachine.Action

/-! ## 1. Frames by their number -/

/-- What a frame says about the return from it: where to, with its result for which variable, and to
how many values on the stack. -/
def Frame.link (f : Frame) : Nat × Option UInt8 × Nat :=
  (f.returnPc, f.returnStore, f.stackBase)

/-- The frame with a number, counted from 1 at the bottom. -/
def Machine.numbered (m : Machine) (number : Nat) : Option Frame :=
  m.frames.reverse[number - 1]?

/-- The frame of the running routine has the highest number. -/
theorem Machine.numbered_depth (m : Machine) : m.numbered m.depth = m.frames.head? := by
  unfold Machine.numbered Machine.depth
  rw [← List.length_reverse, ← List.getLast?_eq_getElem?, List.getLast?_reverse]

/-- Every number up to the depth is that of a frame, with all lower ones below it. -/
theorem exists_frame {frames : List Frame} {number : Nat} (h₁ : 1 ≤ number)
    (h : number ≤ frames.length) :
    ∃ f below, f :: below <:+ frames ∧ below.length + 1 = number := by
  have hlt : frames.length - number < frames.length := by omega
  have hsuffix := List.drop_suffix (frames.length - number) frames
  refine ⟨_, _, List.drop_eq_getElem_cons hlt ▸ hsuffix, ?_⟩
  rw [List.length_drop]
  omega

/-- Frames that still stand at the bottom of others, up to their locals, still have their
numbers. -/
theorem link_of_suffix {m : Machine} {frames below : List Frame} {f : Frame}
    (h : m.frames.map Frame.link <:+ frames.map Frame.link) (hf : f :: below <:+ frames)
    (hlt : below.length < m.depth) :
    (m.numbered (below.length + 1)).map Frame.link = some f.link := by
  obtain ⟨above, rfl⟩ := hf
  obtain ⟨tail, ht⟩ : m.frames.reverse.map Frame.link <+:
      (above ++ f :: below).reverse.map Frame.link := by
    rw [List.map_reverse, List.map_reverse]
    exact List.reverse_prefix.mpr h
  have hlt' : below.length < (m.frames.reverse.map Frame.link).length := by
    rw [List.length_map, List.length_reverse]
    exact hlt
  unfold Machine.numbered
  rw [Nat.add_sub_cancel, ← List.getElem?_map, ← List.getElem?_append_left hlt', ht]
  simp

namespace Machine

/-- The values `kept` are the lowest of the stack: as many as asked for, or all of them if there are
fewer. -/
structure Lowest (count : Nat) (stack kept : List Word) : Prop where
  suffix : kept <:+ stack
  length : kept.length = min count stack.length

theorem lowest_bottom (count : Nat) (stack : List Word) : Lowest count stack (bottom count stack) :=
  ⟨bottom_suffix count stack, length_bottom count stack⟩

/-- The machine after the frame `f` has returned to those below it, with the values `kept` left on
the stack, but for the result. -/
def unwound (m : Machine) (f : Frame) (below : List Frame) (kept : List Word) : Machine :=
  { m with pc := f.returnPc, stack := kept, frames := below }

/-- What is left to do on such a machine: to store the result. -/
def conclude (f : Frame) (value : Word) : Action Machine Flow := do
  storeResult f.returnStore value
  return .returned value

end Machine

/-! ## 2. What a throw does -/

namespace Handler

open Machine

variable {i : Instruction} {value number : Word} {rest : List Word} {m : Machine}

theorem throwTo_eq :
    throwTo i (value :: number :: rest) m =
      if number = 0 ∨ m.depth < number.toNat then .error .returnWithoutCaller m
      else ret value { m with frames := m.frames.drop (m.depth - number.toNat) } := by
  show (if number = 0 ∨ m.depth < number.toNat then throw .returnWithoutCaller
    else do
      set { m with frames := m.frames.drop (m.depth - number.toNat) }
      ret value : Action Machine Flow) m = _
  split
  · rfl
  · rfl

/-- **A throw to a frame with others below it returns from that frame.** -/
theorem throwTo_of_suffix {below : List Frame} {f : Frame} (hf : f :: below <:+ m.frames)
    (hn : below.length + 1 = number.toNat) (hb : 2 ≤ number.toNat) :
    throwTo i (value :: number :: rest) m =
      conclude f value (m.unwound f below (bottom f.stackBase m.stack)) := by
  obtain ⟨above, hf⟩ := hf
  have hdepth : m.depth = above.length + number.toNat := by
    unfold Machine.depth
    rw [← hf, List.length_append, List.length_cons, hn]
  have hdrop : m.frames.drop (m.depth - number.toNat) = f :: below := by
    rw [← hf, hdepth, Nat.add_sub_cancel, List.drop_left]
  have hfound : ¬ (number = 0 ∨ m.depth < number.toNat) := by
    rintro (rfl | hlt)
    · exact absurd hb (by decide)
    · omega
  rw [throwTo_eq, if_neg hfound, hdrop]
  cases below with
  | nil =>
      rw [List.length_nil] at hn
      omega
  | cons caller rest => exact ret_cons_cons value rfl

/-- A throw to no frame, or to the lowest one, fails. -/
theorem throwTo_of_le_one (hn : number.toNat ≤ 1) :
    ∃ m', throwTo i (value :: number :: rest) m = .error .returnWithoutCaller m' := by
  rw [throwTo_eq]
  split
  · exact ⟨m, rfl⟩
  · refine ⟨_, ret_of_short value ?_⟩
    rw [List.length_drop]
    unfold Machine.depth
    omega

end Handler

/-! ## 3. Catching and throwing -/

namespace Session

open Machine

variable {H : Host} {s s₁ t : Session H} {i j : Instruction} {flow : Flow} {value number : Word}
  {rest : List Word} {m q : Machine}

/-- **A frame is caught under the number of running routines**, in 16 bits. -/
theorem numbered_of_catch (he : s.Executes i .catchFrame) (h : step s = .ok flow s₁) :
    flow = .next ∧ ∃ args m, s.Reads i args m ∧
      Received (UInt16.ofNat s.machine.depth) m i.store s₁.machine := by
  obtain ⟨j, op, args, m, u, he', hr, hp, sink, state, rfl⟩ := step_eq_ok h
  obtain ⟨rfl, rfl⟩ := he.unique he'
  obtain ⟨m', hm, rfl⟩ := onMachine_eq_ok.mp hp
  have hm : Handler.catchFrame i args m = .ok flow m' := hm
  unfold Handler.catchFrame at hm
  rw [get_bind] at hm
  obtain ⟨⟨⟩, r, hstore, hnext⟩ := bind_eq_ok.mp hm
  cases hnext
  have hdepth : m.depth = s.machine.depth := hr.popped.quiet.depth
  rw [hdepth] at hstore
  exact ⟨rfl, args, m, hr, storeResult_eq_ok.mp hstore⟩

/-- A throw in the session `t`, whose operands have been read on the machine `q`, returns from the
frame with the number. The return from it is what it was on the machine `caught`; the frame is gone
with all above it, the machine goes on where it says, the stack is cut to its lowest values, as many
as it says, and the value goes to the variable it names, of the routine below. If that takes the
value, the step reports the return, and otherwise it fails. -/
def Unwinds (caught : Machine) (number : Nat) (value : Word) (j : Instruction) (q : Machine)
    (t : Session H) : Prop :=
  ∃ f below kept, f :: below <:+ t.machine.frames ∧ below.length + 1 = number ∧
    (caught.numbered number).map Frame.link = some f.link ∧ Lowest f.stackBase q.stack kept ∧
    (∀ m, Received value (q.unwound f below kept) f.returnStore m →
      step t = .ok (.returned value) { t.ready j q with machine := m }) ∧
    ∀ e m, storeResult f.returnStore value (q.unwound f below kept) = .error e m →
      step t = .error e { t.ready j q with machine := m, state := .failed }

/-- **A throw to a frame that still stands returns from it.** -/
theorem unwinds_of_throw (hstill : m.frames.map Frame.link <:+ t.machine.frames.map Frame.link)
    (he : t.Executes j .throwTo) (hr : t.Reads j (value :: number :: rest) q)
    (h₂ : 2 ≤ number.toNat) (hle : number.toNat ≤ m.depth) :
    Unwinds m number.toNat value j q t := by
  have hlength : m.depth ≤ t.machine.frames.length := by
    have hle := hstill.length_le
    rwa [List.length_map, List.length_map] at hle
  obtain ⟨f, below, hf, hn⟩ := exists_frame (Nat.le_of_succ_le h₂) (Nat.le_trans hle hlength)
  have hlink := link_of_suffix hstill hf (by omega)
  rw [hn] at hlink
  have hq : q.frames = t.machine.frames := by
    obtain ⟨n, rfl⟩ := hr.popped
    rfl
  have hthrow : Handler.throwTo j (value :: number :: rest) q =
      conclude f value (q.unwound f below (bottom f.stackBase q.stack)) :=
    Handler.throwTo_of_suffix (hq ▸ hf) hn h₂
  refine ⟨f, below, _, hf, hn, hlink, lowest_bottom _ _, fun m' hs => ?_, fun e m' hs => ?_⟩
  · have hstore : storeResult f.returnStore value
        (q.unwound f below (bottom f.stackBase q.stack)) = .ok () m' := storeResult_eq_ok.mpr hs
    refine step_of_perform he hr (onMachine_eq_ok.mpr ⟨m', ?_, rfl⟩) nofun
    exact hthrow.trans (bind_of_ok hstore)
  · refine step_of_perform_error he hr (onMachine_eq_error.mpr ⟨m', ?_, rfl⟩)
    exact hthrow.trans (bind_eq_error.mpr (.inl hs))

/-- A throw that returns from the frame with a number leaves one routine less than that running. -/
theorem Unwinds.depth {u : Session H} {n : Nat} (h : Unwinds m n value j q t)
    (hs : step t = .ok flow u) : u.machine.depth + 1 = n := by
  obtain ⟨f, below, kept, -, hn, -, -, hok, herror⟩ := h
  cases hstore : storeResult f.returnStore value (q.unwound f below kept) with
  | error e m' =>
      rw [herror e m' hstore] at hs
      cases hs
  | ok a m' =>
      rw [hok m' (storeResult_eq_ok.mp hstore)] at hs
      cases hs
      have hdepth : m'.depth = below.length :=
        ((keeps_storeResult f.returnStore value).ok hstore).depth
      rw [← hn, ← hdepth]

theorem returnWithoutCaller_of_throw (he : t.Executes j .throwTo)
    (hr : t.Reads j (value :: number :: rest) q) (h₁ : number.toNat ≤ 1) :
    ∃ u, step t = .error .returnWithoutCaller u := by
  obtain ⟨m', hthrow⟩ : ∃ m', Handler.throwTo j (value :: number :: rest) q =
      .error .returnWithoutCaller m' := Handler.throwTo_of_le_one h₁
  exact ⟨_, step_of_perform_error he hr (onMachine_eq_error.mpr ⟨m', hthrow, rfl⟩)⟩

/-- **A throw to a caught frame unwinds to it.** A step that catches its frame stores the number of
running routines modulo 65536. In every session in which that many frames still stand as they stood,
up to their locals, a throw to the stored number returns from the frame with that number, which is
the one that was caught if fewer than 65536 routines were running. There is no return from the
numbers 0 and 1, and where more routines were running, none from the frame that was caught. -/
theorem throw_unwinds (he : s.Executes i .catchFrame) (h : step s = .ok flow s₁) :
    flow = .next ∧ ∃ number : Word, number.toNat = s.machine.depth % 0x10000 ∧
      (∃ args m, s.Reads i args m ∧ Received number m i.store s₁.machine) ∧
      (s.machine.depth < 0x10000 →
        s.machine.numbered number.toNat = s.machine.frames.head?) ∧
      ∀ (t : Session H) (j : Instruction) (value : Word) (rest : List Word) (q : Machine),
        s.machine.frames.map Frame.link <:+ t.machine.frames.map Frame.link →
        t.Executes j .throwTo → t.Reads j (value :: number :: rest) q →
        (2 ≤ number.toNat → Unwinds s.machine number.toNat value j q t) ∧
        (number.toNat ≤ 1 → ∃ u, step t = .error .returnWithoutCaller u) ∧
        (0x10000 ≤ s.machine.depth → ∀ flow u, step t = .ok flow u →
          u.machine.depth + 1 < s.machine.depth) := by
  obtain ⟨rfl, hstored⟩ := numbered_of_catch he h
  have hnumber : (UInt16.ofNat s.machine.depth).toNat = s.machine.depth % 0x10000 :=
    UInt16.toNat_ofNat'
  refine ⟨rfl, UInt16.ofNat s.machine.depth, hnumber, hstored, fun hlt => ?_, ?_⟩
  · rw [hnumber, Nat.mod_eq_of_lt hlt]
    exact s.machine.numbered_depth
  · intro t j value rest q hstill hthrow hr
    have hle : (UInt16.ofNat s.machine.depth).toNat ≤ s.machine.depth := by
      rw [hnumber]
      exact Nat.mod_le _ _
    refine ⟨fun h₂ => unwinds_of_throw hstill hthrow hr h₂ hle,
      returnWithoutCaller_of_throw hthrow hr, fun hmany flow u hs => ?_⟩
    by_cases h₁ : (UInt16.ofNat s.machine.depth).toNat ≤ 1
    · obtain ⟨u', hs'⟩ := returnWithoutCaller_of_throw hthrow hr h₁
      rw [hs'] at hs
      cases hs
    · have hdepth := (unwinds_of_throw hstill hthrow hr (by omega) hle).depth hs
      have hmod : s.machine.depth % 0x10000 < 0x10000 := Nat.mod_lt _ (by decide)
      omega

/-- A session in version 5, with 3 on the stack, about to call a routine that catches its frame,
puts 8 on the stack and calls another one, which puts 9 there and throws 7 to the caught frame. -/
def catching : Session Host.standard :=
  bare
    { memory := ⟨#[5, 0, 0, 0, 0, 0, 0, 0, 0, 0, 0, 0, 0, 0, 0, 0,
        0x88, 0, 8, 0, 0xba, 0, 0, 0, 0, 0, 0, 0, 0, 0, 0, 0,
        1, 0xb9, 1, 0xe8, 0x7f, 8, 0x3a, 0x0c, 1, 0xb0, 0, 0, 0, 0, 0, 0,
        1, 0xe8, 0x7f, 9, 0x3c, 7, 1]⟩
      version := 5
      pc := 0x10
      stack := [3]
      frames := [Frame.main []]
      stackLimit := 1024 }

/-- The instruction that catches the frame, into the first local. -/
def catchInLocal : Instruction :=
  { opcode := ⟨.op0, 9⟩
    form := .short
    operands := []
    store := some 1
    branch := none
    textAddr := none
    size := 2 }

/-- The instruction that throws 7 to the frame in the first local. -/
def throwSeven : Instruction :=
  { opcode := ⟨.op2, 0x1c⟩
    form := .long
    operands := [⟨.small, 7⟩, ⟨.variable, 1⟩]
    store := none
    branch := none
    textAddr := none
    size := 3 }

/-- Of the three values on the stack, the throw leaves the one that was there at the call. -/
theorem catching_unwinds :
    (catching.following 1).Executes catchInLocal .catchFrame ∧
      step (catching.following 1) = .ok .next (catching.following 2) ∧
      (catching.following 5).Executes throwSeven .throwTo ∧
      (catching.following 5).machine.stack = [9, 8, 3] ∧
      (∃ q, (catching.following 5).Reads throwSeven [7, 2] q ∧
        Unwinds (catching.following 1).machine 2 7 throwSeven q (catching.following 5)) ∧
      step (catching.following 5) = .ok (.returned 7) (catching.following 6) ∧
      (catching.following 6).machine.stack = [7, 3] ∧
      (catching.following 6).machine.frames = [Frame.main []] ∧
      (catching.following 6).machine.pc = 0x14 := by
  have he : (catching.following 1).Executes catchInLocal .catchFrame :=
    ⟨by decide +kernel, eq_ok_of_toOption (by decide +kernel), by decide +kernel⟩
  have h₁ : step (catching.following 1) = .ok .next (catching.following 2) :=
    step_following (by decide +kernel)
  have he' : (catching.following 5).Executes throwSeven .throwTo :=
    ⟨by decide +kernel, eq_ok_of_toOption (by decide +kernel), by decide +kernel⟩
  have hr : (catching.following 5).Reads throwSeven [7, 2] _ := rfl
  have hstill : (catching.following 1).machine.frames.map Frame.link <:+
      (catching.following 5).machine.frames.map Frame.link := by
    decide +kernel
  obtain ⟨-, number, hn, -, -, hthrow⟩ := throw_unwinds he h₁
  have hdepth : (catching.following 1).machine.depth = 2 := by decide +kernel
  have hnumber : number = 2 := UInt16.toNat_inj.mp (by rw [hn, hdepth]; rfl)
  subst hnumber
  have hunwinds := (hthrow _ throwSeven 7 [] _ hstill he' hr).1 (by decide)
  have hs : step (catching.following 5) = .ok (.returned 7) (catching.following 6) :=
    step_following (by decide +kernel)
  exact ⟨he, h₁, he', by decide +kernel, ⟨_, hr, hunwinds⟩, hs, by decide +kernel,
    by decide +kernel, by decide +kernel⟩

end Session

end ZMachine
