import Mathlib.Data.List.Induction
import RigBench.Frame.Decoder
import RigBench.Frame.Grammar

/-!
The incremental decoder against the grammar of whole streams. A decoder that is fed a stream in
pieces, and asked for frames at any moments in between, gives the frames that the grammar finds at
the front of the stream; it fails where the grammar ends in an invalid identifier and nowhere else.
-/
namespace RigBench

namespace Frame

@[simp] theorem encodeAll_nil : encodeAll [] = [] := rfl

@[simp] theorem encodeAll_cons (f : Frame) (fs : List Frame) :
    encodeAll (f :: fs) = f.encode ++ encodeAll fs := rfl

@[simp] theorem encodeAll_append (fs gs : List Frame) :
    encodeAll (fs ++ gs) = encodeAll fs ++ encodeAll gs :=
  List.flatMap_append

end Frame

theorem parseStream_encode_append (f : Frame) (rest : Bytes) :
    parseStream (f.encode ++ rest) = (f :: (parseStream rest).1, (parseStream rest).2) := by
  have hlength := f.toNat_lengthByte
  have hshort : ¬(f.payload ++ rest).length < f.payload.length := by simp
  rw [Frame.encode, List.cons_append, List.cons_append, parseStream]
  simp only [f.id_le, hlength, hshort, ↓reduceDIte, ↓reduceIte, List.take_left, List.drop_left]

theorem parseStream_encodeAll_append (fs : List Frame) (rest : Bytes) :
    parseStream (Frame.encodeAll fs ++ rest) = (fs ++ (parseStream rest).1, (parseStream rest).2) := by
  induction fs with
  | nil => rfl
  | cons f fs ih =>
    rw [Frame.encodeAll_cons, List.append_assoc, parseStream_encode_append, ih, List.cons_append]

theorem parseStream_of_invalid {id : UInt8} (length : UInt8) (rest : Bytes) (hid : 63 < id) :
    parseStream (id :: length :: rest) = ([], .invalid id (id :: length :: rest)) := by
  rw [parseStream]
  simp only [UInt8.not_le.mpr hid, ↓reduceDIte]

/-- The bytes left when a stream ends inside a frame: a part of one frame, or one byte that may
or may not begin one. -/
def Unfinished (bytes : Bytes) : Prop :=
  (∃ f : Frame, bytes <+: f.encode ∧ bytes ≠ f.encode) ∨ ∃ b, bytes = [b]

theorem Unfinished.length_lt {bytes : Bytes} (h : Unfinished bytes) : bytes.length < 257 := by
  rcases h with ⟨f, hpart, hne⟩ | ⟨b, rfl⟩
  · have hle := hpart.length_le
    have hproper : bytes.length ≠ f.encode.length := fun heq => hne (hpart.eq_of_length heq)
    have hpayload := f.length_le
    simp only [Frame.length_encode, Frame.encodedLength, Frame.headerSize] at hle hproper
    omega
  · simp

theorem unfinished_of_no_header {bytes : Bytes}
    (h : ∀ id length rest, bytes ≠ id :: length :: rest) : Unfinished bytes := by
  cases bytes with
  | nil => exact .inl ⟨⟨0, [], by decide, by decide⟩, List.nil_prefix, by simp [Frame.encode]⟩
  | cons b bytes =>
    cases bytes with
    | nil => exact .inr ⟨b, rfl⟩
    | cons length rest => exact absurd rfl (h b length rest)

theorem unfinished_of_short {id length : UInt8} {rest : Bytes} (hid : id ≤ 63)
    (hshort : rest.length < length.toNat) : Unfinished (id :: length :: rest) := by
  have hbound := length.toNat_lt
  let missing : Bytes := List.replicate (length.toNat - rest.length) 0
  have hwhole : (rest ++ missing).length = length.toNat := by
    rw [List.length_append, List.length_replicate]
    omega
  let f : Frame := ⟨id, rest ++ missing, hid, by omega⟩
  have hencode : f.encode = (id :: length :: rest) ++ missing := by
    change id :: UInt8.ofNat (rest ++ missing).length :: (rest ++ missing) = _
    rw [hwhole, UInt8.ofNat_toNat]
    rfl
  refine .inl ⟨f, ?_, ?_⟩
  · rw [hencode]
    exact List.prefix_append _ _
  · intro heq
    have hlength := congrArg List.length (heq.trans hencode)
    simp only [List.length_append, List.length_cons, missing, List.length_replicate] at hlength
    omega

namespace FrameDecoder

theorem next_frame {d d' : FrameDecoder} {f : Frame} (h : d.next = (.ok (some f), d')) :
    d.poisoned = false ∧ d'.poisoned = false ∧ d.buffer = f.encode ++ d'.buffer := by
  unfold next at h
  split at h
  · simp at h
  next hclean =>
    rw [Bool.not_eq_true] at hclean
    split at h
    · next id length rest hb =>
      split at h
      · next hid =>
        dsimp only at h
        split at h
        · simp at h
        · next hlong =>
          simp only [Prod.mk.injEq, Except.ok.injEq, Option.some.injEq] at h
          obtain ⟨rfl, rfl⟩ := h
          have hfull : (rest.take length.toNat).length = length.toNat := by
            have := List.length_take_le length.toNat rest
            omega
          refine ⟨hclean, hclean, ?_⟩
          simp only [hb, Frame.encode, hfull, UInt8.ofNat_toNat, List.cons_append,
            List.take_append_drop]
      · simp at h
    · simp at h

theorem next_none {d d' : FrameDecoder} (h : d.next = (.ok none, d')) :
    d' = d ∧ d.poisoned = false ∧ parseStream d.buffer = ([], .incomplete d.buffer) ∧
      Unfinished d.buffer := by
  unfold next at h
  split at h
  · simp at h
  next hclean =>
    rw [Bool.not_eq_true] at hclean
    split at h
    · next id length rest hb =>
      split at h
      · next hid =>
        dsimp only at h
        split at h
        · next hshort =>
          have hrest : rest.length < length.toNat := by
            rw [List.length_take] at hshort
            omega
          refine ⟨(Prod.mk.inj h).2.symm, hclean, ?_, hb ▸ unfinished_of_short hid hrest⟩
          rw [hb, parseStream]
          simp only [hid, hrest, ↓reduceDIte, ↓reduceIte]
        · simp at h
      · simp at h
    · next hheader =>
      refine ⟨(Prod.mk.inj h).2.symm, hclean, ?_, ?_⟩
      · rw [parseStream]
        intro id length rest hb
        exact hheader id length rest hb
      · exact unfinished_of_no_header fun id length rest hb => hheader id length rest hb

theorem next_error {d d' : FrameDecoder} {e : BenchError} (h : d.next = (.error e, d')) :
    d' = { d with poisoned := true } ∧
      (d.poisoned = true ∨ ∃ id length rest, d.buffer = id :: length :: rest ∧ 63 < id) := by
  unfold next at h
  split at h
  · next hpoisoned =>
    obtain rfl := (Prod.mk.inj h).2
    exact ⟨by rw [← hpoisoned], .inl hpoisoned⟩
  · split at h
    · next id length rest hb =>
      split at h
      · dsimp only at h
        split at h <;> simp at h
      · next hid =>
        exact ⟨(Prod.mk.inj h).2.symm, .inr ⟨id, length, rest, hb, UInt8.not_le.mp hid⟩⟩
    · simp at h

end FrameDecoder

/-- What is done with a decoder: it is handed bytes, or asked for a frame. -/
inductive ReadingStep
  | feed (bytes : Bytes)
  | ask
  deriving DecidableEq

/-- A decoder with the bytes it was fed, the frames it gave and the error it gave, if any. -/
structure Reading where
  decoder : FrameDecoder := {}
  fed : Bytes := []
  frames : List Frame := []
  failure : Option BenchError := none
  deriving DecidableEq

namespace Reading

def feed (r : Reading) (bytes : Bytes) : Reading :=
  { r with decoder := r.decoder.feed bytes, fed := r.fed ++ bytes }

def ask (r : Reading) : Reading :=
  match r.decoder.next with
  | (.ok f, decoder) => { r with decoder, frames := r.frames ++ f.toList }
  | (.error e, decoder) => { r with decoder, failure := some e }

def step (r : Reading) : ReadingStep → Reading
  | .feed bytes => r.feed bytes
  | .ask => r.ask

def run (steps : List ReadingStep) : Reading := steps.foldl step {}

def Exhausted (r : Reading) : Prop := r.decoder.next.1 = .ok none

/-- Take in a piece of the stream and all frames that are complete with it. A decoder that has
failed is not asked again. -/
def takeIn (r : Reading) (bytes : Bytes) : Reading :=
  let r := r.feed bytes
  if r.failure.isSome then r
  else
    let (frames, failure, decoder) := r.decoder.drain
    { r with decoder, frames := r.frames ++ frames, failure }

def takeInAll (pieces : List Bytes) : Reading := pieces.foldl takeIn {}

/-- What holds of a decoder at work at every moment. -/
structure Sound (r : Reading) : Prop where
  fed_eq : r.fed = Frame.encodeAll r.frames ++ r.decoder.buffer
  failure_iff : r.failure.isSome = r.decoder.poisoned
  invalid : r.decoder.poisoned = true →
    ∃ id length rest, r.decoder.buffer = id :: length :: rest ∧ 63 < id

theorem Sound.start : Sound {} := ⟨rfl, rfl, nofun⟩

theorem Sound.feed {r : Reading} (h : r.Sound) (bytes : Bytes) : (r.feed bytes).Sound where
  fed_eq := by
    change r.fed ++ bytes = Frame.encodeAll r.frames ++ (r.decoder.buffer ++ bytes)
    rw [h.fed_eq, List.append_assoc]
  failure_iff := h.failure_iff
  invalid hp := by
    obtain ⟨id, length, rest, hb, hid⟩ := h.invalid hp
    exact ⟨id, length, rest ++ bytes, by simp [Reading.feed, FrameDecoder.feed, hb], hid⟩

theorem Sound.ask {r : Reading} (h : r.Sound) : r.ask.Sound := by
  unfold Reading.ask
  split
  · next answer d hnext =>
    cases answer with
    | some f =>
      obtain ⟨hclean, hclean', hb⟩ := FrameDecoder.next_frame hnext
      refine ⟨?_, ?_, ?_⟩
      · simp [h.fed_eq, hb]
      · rw [← hclean.trans hclean'.symm]
        exact h.failure_iff
      · simp [hclean']
    | none =>
      obtain ⟨rfl, -⟩ := FrameDecoder.next_none hnext
      simpa using h
  · next e d hnext =>
    obtain ⟨rfl, hcause⟩ := FrameDecoder.next_error hnext
    refine ⟨h.fed_eq, rfl, fun _ => ?_⟩
    rcases hcause with hp | hinvalid
    · exact h.invalid hp
    · exact hinvalid

theorem Sound.step {r : Reading} (h : r.Sound) (s : ReadingStep) : (r.step s).Sound := by
  cases s with
  | feed bytes => exact h.feed bytes
  | ask => exact h.ask

theorem Sound.foldl {r : Reading} (h : r.Sound) (steps : List ReadingStep) :
    (steps.foldl Reading.step r).Sound := by
  induction steps generalizing r with
  | nil => exact h
  | cons s steps ih => exact ih (h.step s)

theorem sound_run (steps : List ReadingStep) : (run steps).Sound := Sound.start.foldl steps

theorem Sound.parseStream_fed {r : Reading} (h : r.Sound) (more : Bytes) :
    parseStream (r.fed ++ more) =
      (r.frames ++ (parseStream (r.decoder.buffer ++ more)).1,
        (parseStream (r.decoder.buffer ++ more)).2) := by
  rw [h.fed_eq, List.append_assoc, parseStream_encodeAll_append]

theorem Sound.isPrefix_parseStream {r : Reading} (h : r.Sound) (more : Bytes) :
    r.frames <+: (parseStream (r.fed ++ more)).1 := by
  rw [h.parseStream_fed more]
  exact List.prefix_append _ _

theorem Sound.of_failure {r : Reading} (h : r.Sound) (hf : r.failure.isSome = true)
    (more : Bytes) :
    ∃ id length rest, 63 < id ∧ r.decoder.buffer = id :: length :: rest ∧
      parseStream (r.fed ++ more) = (r.frames, .invalid id (id :: length :: (rest ++ more))) := by
  obtain ⟨id, length, rest, hb, hid⟩ := h.invalid (h.failure_iff ▸ hf)
  refine ⟨id, length, rest, hid, hb, ?_⟩
  rw [h.parseStream_fed, hb, List.cons_append, List.cons_append, parseStream_of_invalid _ _ hid,
    List.append_nil]

theorem Sound.of_exhausted {r : Reading} (h : r.Sound) (hx : r.Exhausted) :
    r.failure = none ∧ parseStream r.fed = (r.frames, .incomplete r.decoder.buffer) ∧
      Unfinished r.decoder.buffer := by
  have hnext : r.decoder.next = (.ok none, r.decoder.next.2) := Prod.ext hx rfl
  obtain ⟨-, hclean, hparse, hrest⟩ := FrameDecoder.next_none hnext
  refine ⟨?_, ?_, hrest⟩
  · rw [← Option.not_isSome_iff_eq_none, h.failure_iff, hclean]
    exact Bool.false_ne_true
  · have := h.parseStream_fed []
    rwa [List.append_nil, List.append_nil, hparse, List.append_nil] at this

theorem exists_asks_eq_drain (d : FrameDecoder) (r : Reading) (hd : r.decoder = d)
    (hf : r.failure = none) :
    ∃ n, (List.replicate n .ask).foldl step r =
        { r with
          decoder := d.drain.2.2
          frames := r.frames ++ d.drain.1
          failure := d.drain.2.1 } ∧
      (d.drain.2.1 = none → d.drain.2.2.next.1 = .ok none) := by
  fun_induction FrameDecoder.drain d generalizing r with
  | case1 d f d' hnext fs e d'' hdrain ih =>
    have hask : r.ask = { r with decoder := d', frames := r.frames ++ [f] } := by
      simp [ask, hd, hnext]
    obtain ⟨n, hrun, hend⟩ := ih { r with decoder := d', frames := r.frames ++ [f] } rfl hf
    rw [hdrain] at hrun hend
    refine ⟨n + 1, ?_, hend⟩
    rw [List.replicate_succ, List.foldl_cons, step, hask, hrun]
    simp
  | case2 d d' hnext =>
    obtain rfl := (FrameDecoder.next_none hnext).1
    refine ⟨0, ?_, fun _ => congrArg Prod.fst hnext⟩
    cases r
    simp_all
  | case3 d e d' hnext =>
    refine ⟨1, ?_, nofun⟩
    simp [step, ask, hd, hnext]

/-- Taking in a piece is one way to place the questions; it ends with an error or in vain. -/
theorem exists_steps_eq_takeIn (r : Reading) (bytes : Bytes) :
    ∃ steps : List ReadingStep, r.takeIn bytes = steps.foldl step r ∧
      ((r.takeIn bytes).failure.isSome = true ∨ (r.takeIn bytes).Exhausted) := by
  by_cases hf : r.failure.isSome = true
  · have htake : r.takeIn bytes = r.feed bytes := if_pos hf
    exact ⟨[.feed bytes], htake, .inl (htake ▸ hf)⟩
  · have hnone : (r.feed bytes).failure = none := Option.not_isSome_iff_eq_none.mp hf
    obtain ⟨n, hrun, hend⟩ := exists_asks_eq_drain (r.feed bytes).decoder (r.feed bytes) rfl hnone
    have htake : r.takeIn bytes = (List.replicate n .ask).foldl step (r.feed bytes) := by
      rw [hrun]
      exact if_neg hf
    refine ⟨.feed bytes :: List.replicate n .ask, htake, ?_⟩
    rw [htake, hrun]
    cases hfail : (r.feed bytes).decoder.drain.2.1 with
    | some e => exact .inl rfl
    | none => exact .inr (hend hfail)

theorem fed_takeIn (r : Reading) (bytes : Bytes) : (r.takeIn bytes).fed = r.fed ++ bytes := by
  unfold takeIn
  dsimp only
  split <;> rfl

theorem fed_takeInAll (pieces : List Bytes) : (takeInAll pieces).fed = pieces.flatten := by
  have hfold : ∀ r : Reading, (pieces.foldl takeIn r).fed = r.fed ++ pieces.flatten := by
    induction pieces with
    | nil => simp
    | cons bytes pieces ih =>
      intro r
      rw [List.foldl_cons, ih, fed_takeIn, List.flatten_cons, List.append_assoc]
  exact hfold {}

/-- Taking in a stream piece by piece is a run, and leaves nothing to ask for. -/
theorem exists_run_eq_takeInAll (pieces : List Bytes) :
    ∃ steps, takeInAll pieces = run steps ∧
      ((takeInAll pieces).failure.isSome = true ∨ (takeInAll pieces).Exhausted) := by
  induction pieces using List.reverseRecOn with
  | nil => exact ⟨[], rfl, .inr rfl⟩
  | append_singleton pieces bytes ih =>
    obtain ⟨steps, hrun, -⟩ := ih
    obtain ⟨more, hmore, hend⟩ := exists_steps_eq_takeIn (takeInAll pieces) bytes
    have hsnoc : takeInAll (pieces ++ [bytes]) = (takeInAll pieces).takeIn bytes := by
      simp [takeInAll]
    refine ⟨steps ++ more, ?_, hsnoc ▸ hend⟩
    rw [hsnoc, hmore, hrun, run, run, List.foldl_append]

end Reading

/-- The decoder is the grammar, whatever the pieces of the stream and the moments of the questions.
At every moment the frames given so far are the first of the stream, and with the buffered bytes
they are all that was fed; an error is an invalid identifier of the grammar. Once the decoder has
no more to give, these are all frames there are and a part of one is left. Asked to the end after
every piece, it gives all frames of the stream, and an error exactly if the grammar meets one. -/
theorem decoder_gives_parseStream :
    (∀ (steps : List ReadingStep) (more : Bytes),
      let r := Reading.run steps
      r.fed = Frame.encodeAll r.frames ++ r.decoder.buffer ∧
      r.frames <+: (parseStream (r.fed ++ more)).1 ∧
      (r.failure.isSome = true → ∃ id length rest, 63 < id ∧
        r.decoder.buffer = id :: length :: rest ∧
        parseStream (r.fed ++ more) = (r.frames, .invalid id (id :: length :: (rest ++ more)))) ∧
      (r.Exhausted → r.failure = none ∧
        parseStream r.fed = (r.frames, .incomplete r.decoder.buffer) ∧
        r.decoder.buffer.length < 257 ∧ Unfinished r.decoder.buffer)) ∧
    (∀ pieces : List Bytes,
      let r := Reading.takeInAll pieces
      r.fed = pieces.flatten ∧
      r.fed = Frame.encodeAll r.frames ++ r.decoder.buffer ∧
      r.frames = (parseStream pieces.flatten).1 ∧
      (r.failure.isSome = true ↔ ∃ id length rest, 63 < id ∧
        (parseStream pieces.flatten).2 = .invalid id (id :: length :: rest)) ∧
      (r.failure = none → (parseStream pieces.flatten).2 = .incomplete r.decoder.buffer ∧
        r.decoder.buffer.length < 257 ∧ Unfinished r.decoder.buffer)) := by
  refine ⟨fun steps more => ?_, fun pieces => ?_⟩
  · have h := Reading.sound_run steps
    refine ⟨h.fed_eq, h.isPrefix_parseStream more, fun hf => h.of_failure hf more, fun hx => ?_⟩
    obtain ⟨hnone, hparse, hrest⟩ := h.of_exhausted hx
    exact ⟨hnone, hparse, hrest.length_lt, hrest⟩
  · obtain ⟨steps, hrun, hend⟩ := Reading.exists_run_eq_takeInAll pieces
    have h : (Reading.takeInAll pieces).Sound := hrun ▸ Reading.sound_run steps
    have hfed := Reading.fed_takeInAll pieces
    refine ⟨hfed, h.fed_eq, ?_⟩
    rcases hend with hf | hx
    · obtain ⟨id, length, rest, hid, -, hparse⟩ := h.of_failure hf []
      rw [List.append_nil, List.append_nil, hfed] at hparse
      rw [hparse]
      refine ⟨rfl, ⟨fun _ => ⟨id, length, rest, hid, rfl⟩, fun _ => hf⟩, fun hnone => ?_⟩
      rw [hnone] at hf
      exact absurd hf Bool.false_ne_true
    · obtain ⟨hnone, hparse, hrest⟩ := h.of_exhausted hx
      rw [hfed] at hparse
      rw [hparse, hnone]
      refine ⟨rfl, ⟨nofun, ?_⟩, fun _ => ⟨rfl, hrest.length_lt, hrest⟩⟩
      rintro ⟨id, length, rest, -, hinvalid⟩
      exact absurd hinvalid (by simp)

end RigBench
