import ConsoleCalculator.Server.Session

/-!
# What a session buffers

`TcpJsonServer::Session` (`server/src/tcp-json-server.cpp`) compares the size of a message with
`max_message_size_` in `on_read`, and `on_read` runs when `async_read_until` has found a newline.
`buffer_` has no maximum size of its own, so until the newline arrives every read is appended to it.

* `unterminated` is the part of `buffer_` after its last newline: the message that has not ended.
* A message is over the limit if it does not fit with its newline. The first one of a stream that is
  over the limit is the last one the session looks at; with its newline the session ends.

Results:
* `tracks_step`: a session has handled messages that fit, and what follows the last newline of
  `buffer_` came in one read, if there is a newline.
* **`outgrown_closed_iff`**: with reads of at most `c` bytes, `buffer_` has at most
  `max_message_size_ + c` bytes of an unterminated message, and no session waits for the newline of
  a message that is longer than `max_message_size_`, for every way to cut the stream, exactly if the
  first message over the limit is over it only with its newline. `unterminated_outgrows` is a stream
  where neither is so.
-/

namespace ConsoleCalculator

open Base

namespace Session

/-- The bytes after the last newline. -/
def unterminated (buffer : Bytes) : Bytes := buffer.rtakeWhile (· != newline)

/-- A read is in progress, for the newline of the message that is all of `buffer_`. -/
def AwaitsNewline (s : Session) : Prop := s.phase = .reading ∧ newline ∉ s.buffer

/-- The first message of a stream that does not fit, with or without a newline after it. -/
def firstTooLong (maxMessageSize : ℕ) (stream : Bytes) : Option Bytes :=
  (stream.splitOn newline).find? fun message => decide (maxMessageSize < message.length + 1)

/-! ## Lines -/

theorem unterminated_of_notMem {bs : Bytes} (h : newline ∉ bs) : unterminated bs = bs := by
  unfold unterminated
  rw [List.rtakeWhile_eq_self_iff]
  intro b hb
  exact bne_iff_ne.mpr fun he => h (he ▸ hb)

theorem unterminated_newline (line rest : Bytes) :
    unterminated (line ++ newline :: rest) = unterminated rest := by
  unfold unterminated List.rtakeWhile
  rw [List.reverse_append, List.reverse_cons, List.append_assoc, List.takeWhile_append]
  split
  · rename_i hall
    simp [(List.takeWhile_prefix (· != newline)).eq_of_length hall]
  · rfl

/-- Where there is a newline, what stands before it does not count. -/
theorem unterminated_append (bs : Bytes) {rest : Bytes} (h : newline ∈ rest) :
    unterminated (bs ++ rest) = unterminated rest := by
  obtain ⟨line, after, rfl⟩ := List.append_of_mem h
  rw [← List.append_assoc, unterminated_newline, unterminated_newline]

theorem length_unterminated_le (bs : Bytes) : (unterminated bs).length ≤ bs.length :=
  (List.rtakeWhile_suffix _ bs).length_le

theorem firstTooLong_eq_some {maxMessageSize : ℕ} {stream message : Bytes}
    (h : firstTooLong maxMessageSize stream = some message) :
    ∃ fitting rest, (∀ m ∈ fitting, newline ∉ m ∧ m.length + 1 ≤ maxMessageSize) ∧
      newline ∉ message ∧ stream = terminated newline fitting ++ (message ++ rest) := by
  obtain ⟨-, fitting, after, hsplit, hfits⟩ := List.find?_eq_some_iff_append.mp h
  obtain ⟨hnone, hmessage, rest, hstream⟩ := exists_terminated hsplit
  exact ⟨fitting, rest, fun m hm => ⟨hnone m hm, by simpa using hfits m hm⟩, hmessage, hstream⟩

/-- What stands before a newline after messages that fit either fits itself, or is the beginning of
the first message over the limit. -/
theorem length_le_of_firstTooLong {maxMessageSize : ℕ} {fitting : List Bytes} {bs rest : Bytes}
    (hfitting : ∀ m ∈ fitting, newline ∉ m ∧ m.length + 1 ≤ maxMessageSize) (hbs : newline ∉ bs)
    (h : ∀ message, firstTooLong maxMessageSize (terminated newline fitting ++ (bs ++ rest)) =
      some message → message.length ≤ maxMessageSize) : bs.length ≤ maxMessageSize := by
  obtain ⟨more, messages, hsplit⟩ := splitOn_append hbs rest
  have hskip : fitting.find? (fun m => decide (maxMessageSize < m.length + 1)) = none :=
    List.find?_eq_none.mpr fun m hm => by simpa using (hfitting m hm).2
  by_cases hlong : maxMessageSize < (bs ++ more).length + 1
  · have hfirst : firstTooLong maxMessageSize (terminated newline fitting ++ (bs ++ rest)) =
        some (bs ++ more) := by
      rw [firstTooLong, splitOn_terminated fun m hm => (hfitting m hm).1, List.find?_append, hskip,
        hsplit, Option.none_or, List.find?_cons_of_pos (by simpa using hlong)]
    have hle := h _ hfirst
    rw [List.length_append] at hle
    omega
  · rw [List.length_append] at hlong
    omega

section

variable {handler : ℕ → Bytes → Bytes} {maxMessageSize c : ℕ} {stream : Bytes}

/-! ## What a session has in its buffer -/

/-- Where a session is in its stream, which it gets in reads of at most `c` bytes. -/
structure Tracks (maxMessageSize c : ℕ) (stream : Bytes) (s : Session) : Prop where
  /-- What it has taken out of `buffer_` are messages that fit. -/
  position : ∃ fitting, (∀ m ∈ fitting, newline ∉ m ∧ m.length + 1 ≤ maxMessageSize) ∧
    stream = terminated newline fitting ++ (s.buffer ++ s.segments.flatten)
  reads : ∀ segment ∈ s.segments, segment.length ≤ c
  /-- No read is started with a newline in `buffer_`, so what follows it is from the last read. -/
  lastRead : newline ∈ s.buffer → (unterminated s.buffer).length ≤ c

theorem tracks_start {segments : List Bytes} (hreads : ∀ segment ∈ segments, segment.length ≤ c) :
    Tracks maxMessageSize c segments.flatten (start segments) :=
  ⟨⟨[], by simp, by simp [start]⟩, hreads, by simp [start]⟩

theorem tracks_step {s s' : Session} {e : SessionEvent} (hs : Tracks maxMessageSize c stream s)
    (h : step handler maxMessageSize s e = some s') : Tracks maxMessageSize c stream s' := by
  obtain ⟨⟨fitting, hfitting, hstream⟩, hreads, hlast⟩ := hs
  cases step_cases h with
  | received segment rest _ hnone hsegments =>
    rw [hsegments] at hstream hreads
    refine ⟨⟨fitting, hfitting, by simpa using hstream⟩,
      fun segment' h' => hreads segment' (List.mem_cons_of_mem segment h'), fun hmem => ?_⟩
    have hsegment : newline ∈ segment := (List.mem_append.mp hmem).resolve_left hnone
    calc (unterminated (s.buffer ++ segment)).length
        = (unterminated segment).length := by rw [unterminated_append _ hsegment]
      _ ≤ segment.length := length_unterminated_le segment
      _ ≤ c := hreads segment List.mem_cons_self
  | tooLong => exact ⟨⟨fitting, hfitting, hstream⟩, hreads, hlast⟩
  | handled line rest _ hline hbuffer hfits =>
    rw [hbuffer] at hstream hlast
    rw [unterminated_newline] at hlast
    refine ⟨⟨fitting ++ [line], ?_, ?_⟩, hreads, fun _ => hlast (by simp)⟩
    · intro m hm
      rcases List.mem_append.mp hm with hm | hm
      · exact hfitting m hm
      · exact List.mem_singleton.mp hm ▸ ⟨hline, hfits⟩
    · simpa [terminated_append] using hstream
  | eof => exact ⟨⟨fitting, hfitting, hstream⟩, hreads, hlast⟩
  | wrote r => exact ⟨⟨fitting, hfitting, hstream⟩, hreads, hlast⟩

theorem tracks_run {s s' : Session} {es : List SessionEvent}
    (hs : Tracks maxMessageSize c stream s) (h : s.run handler maxMessageSize es = some s') :
    Tracks maxMessageSize c stream s' :=
  runSteps_invariant (fun _ _ _ hi hstep => tracks_step hi hstep) es hs h

/-- As long as there is no newline in `buffer_`, it has no more than the limit. -/
theorem Tracks.length_le {s : Session} (hs : Tracks maxMessageSize c stream s)
    (hfirst : ∀ message, firstTooLong maxMessageSize stream = some message →
      message.length ≤ maxMessageSize) (hnone : newline ∉ s.buffer) :
    s.buffer.length ≤ maxMessageSize := by
  obtain ⟨⟨fitting, hfitting, rfl⟩, -, -⟩ := hs
  exact length_le_of_firstTooLong hfitting hnone hfirst

theorem Tracks.unterminated_le {s : Session} (hs : Tracks maxMessageSize c stream s)
    (hfirst : ∀ message, firstTooLong maxMessageSize stream = some message →
      message.length ≤ maxMessageSize) :
    (unterminated s.buffer).length ≤ maxMessageSize + c := by
  by_cases hmem : newline ∈ s.buffer
  · have hread := hs.lastRead hmem
    omega
  · have hle := hs.length_le hfirst hmem
    rw [unterminated_of_notMem hmem]
    omega

/-! ## Byte by byte -/

/-- A stream that arrives one byte at a time. -/
def singleBytes (stream : Bytes) : List Bytes := stream.map fun b => [b]

theorem flatten_singleBytes : ∀ stream : Bytes, (singleBytes stream).flatten = stream
  | [] => rfl
  | b :: bs => congrArg (b :: ·) (flatten_singleBytes bs)

/-- A session that is to read `rest`, byte by byte. -/
def awaiting (buffer rest : Bytes) (requests written : List Bytes) : Session :=
  ⟨buffer, singleBytes rest, .reading, requests, written⟩

theorem step_receive {buffer : Bytes} (h : newline ∉ buffer) (b : UInt8) (rest : Bytes)
    (requests written : List Bytes) :
    step handler maxMessageSize (awaiting buffer (b :: rest) requests written) .receive =
      some (awaiting (buffer ++ [b]) rest requests written) := by
  simp [step, awaiting, bytesTransferred_eq_none.mpr h, singleBytes]

/-- Bytes without a newline all go to `buffer_`, and the read goes on. -/
theorem reaches_received (rest : Bytes) (requests written : List Bytes) :
    ∀ (bs : Bytes) {buffer : Bytes}, newline ∉ buffer → newline ∉ bs →
      Reaches (step handler maxMessageSize) (awaiting buffer (bs ++ rest) requests written)
        (awaiting (buffer ++ bs) rest requests written)
  | [], buffer, _, _ => by
    rw [List.append_nil]
    exact .refl _
  | b :: bs, buffer, hbuffer, hbs => by
    rw [List.mem_cons, not_or] at hbs
    have hread : newline ∉ buffer ++ [b] := by simp [hbuffer, hbs.1]
    have hmore := reaches_received rest requests written bs hread hbs.2
    rw [List.append_cons]
    exact .head (step_receive hbuffer b (bs ++ rest) requests written) hmore

/-- A message that fits is answered, and the session goes on with an empty buffer. -/
theorem reaches_answered {message : Bytes} (hmessage : newline ∉ message)
    (hfits : message.length + 1 ≤ maxMessageSize) (rest : Bytes) (requests written : List Bytes) :
    ∃ requests' written', Reaches (step handler maxMessageSize)
      (awaiting [] (message ++ newline :: rest) requests written)
      (awaiting [] rest requests' written') := by
  have hnot : ¬ message.length + 1 > maxMessageSize := Nat.not_lt.mpr hfits
  have hreceived : Reaches (step handler maxMessageSize)
      (awaiting [] (message ++ newline :: rest) requests written)
      (awaiting message (newline :: rest) requests written) :=
    reaches_received (newline :: rest) requests written message List.not_mem_nil hmessage
  have hread : step handler maxMessageSize
      (awaiting (message ++ [newline]) rest requests written) .readComplete =
      some ⟨[], singleBytes rest,
        .writing (response handler requests.length (withoutCarriageReturn message)),
        requests ++ [withoutCarriageReturn message], written⟩ := by
    simp [step, awaiting, bytesTransferred_line hmessage [], onRead, hnot, getline_line hmessage []]
  exact ⟨_, _, hreceived.trans (.head (step_receive hmessage newline rest requests written)
    (.head hread (.head (e := .writeComplete) rfl (.refl _))))⟩

/-- The messages before one that is being read are answered first, and the read goes on until its
newline comes. -/
theorem reaches_message {message : Bytes} (hmessage : newline ∉ message) (rest : Bytes) :
    ∀ (fitting : List Bytes) (requests written : List Bytes),
      (∀ m ∈ fitting, newline ∉ m ∧ m.length + 1 ≤ maxMessageSize) →
      ∃ s, Reaches (step handler maxMessageSize)
          (awaiting [] (terminated newline fitting ++ (message ++ rest)) requests written) s ∧
        s.buffer = message ∧ s.phase = .reading
  | [], requests, written, _ =>
    ⟨_, reaches_received rest requests written message List.not_mem_nil hmessage, rfl, rfl⟩
  | m :: ms, requests, written, h => by
    obtain ⟨hm, hfits⟩ := h m List.mem_cons_self
    rw [terminated_cons, List.append_assoc, List.cons_append]
    obtain ⟨requests', written', hanswered⟩ :=
      reaches_answered hm hfits (terminated newline ms ++ (message ++ rest)) requests written
    obtain ⟨s, hreaches, hs⟩ := reaches_message hmessage rest ms requests' written'
      fun m' hm' => h m' (List.mem_cons_of_mem m hm')
    exact ⟨s, hanswered.trans hreaches, hs⟩

end

/-- **A message that outgrows the limit is read to its end.** With reads of at most `c` bytes, two
things hold in every state and for every way to cut the stream: `buffer_` has at most
`max_message_size_ + c` bytes of an unterminated message, and a session whose unterminated message
has outgrown the limit does not wait for its newline. They do exactly if the first message of the
stream that is over the limit has no more than `max_message_size_` bytes, so that only its newline
makes it too long. -/
theorem outgrown_closed_iff (handler : ℕ → Bytes → Bytes) (maxMessageSize c : ℕ) (hc : 0 < c)
    (stream : Bytes) :
    (∀ segments : List Bytes, segments.flatten = stream →
      (∀ segment ∈ segments, segment.length ≤ c) →
      ∀ es s, (start segments).run handler maxMessageSize es = some s →
        (unterminated s.buffer).length ≤ maxMessageSize + c ∧
        (maxMessageSize < (unterminated s.buffer).length → ¬ s.AwaitsNewline)) ↔
    ∀ message, firstTooLong maxMessageSize stream = some message →
      message.length ≤ maxMessageSize := by
  constructor
  · -- byte by byte, the message comes to stand in `buffer_` before its newline does
    intro hbound message hfirst
    obtain ⟨fitting, rest, hfitting, hmessage, rfl⟩ := firstTooLong_eq_some hfirst
    obtain ⟨s, ⟨es, hes⟩, rfl, hphase⟩ := reaches_message hmessage rest fitting [] [] hfitting
    have hsingle : ∀ segment ∈ singleBytes (terminated newline fitting ++ (s.buffer ++ rest)),
        segment.length ≤ c := by
      intro segment hsegment
      obtain ⟨b, -, rfl⟩ := List.mem_map.mp hsegment
      exact hc
    obtain ⟨-, hclosed⟩ := hbound _ (flatten_singleBytes _) hsingle es s hes
    rw [unterminated_of_notMem hmessage] at hclosed
    by_contra hlong
    exact hclosed (Nat.not_le.mp hlong) ⟨hphase, hmessage⟩
  · rintro hfirst segments rfl hreads es s hrun
    have htracks := tracks_run (tracks_start hreads) hrun
    refine ⟨htracks.unterminated_le hfirst, fun hlong hawaits => ?_⟩
    have hle := htracks.length_le hfirst hawaits.2
    rw [unterminated_of_notMem hawaits.2] at hlong
    omega

/-- With a limit of 4, a line of four bytes is too long with its newline only. -/
theorem outgrown_closed_iff_line :
    firstTooLong 4 [97, 10, 97, 98, 99, 100, 10, 97] = some [97, 98, 99, 100] ∧
    ∀ segments : List Bytes, segments.flatten = [97, 10, 97, 98, 99, 100, 10, 97] →
      (∀ segment ∈ segments, segment.length ≤ 2) →
      ∀ es s, (start segments).run sampleHandler 4 es = some s →
        (unterminated s.buffer).length ≤ 6 ∧
        (4 < (unterminated s.buffer).length → ¬ s.AwaitsNewline) := by
  have hfirst : firstTooLong 4 [97, 10, 97, 98, 99, 100, 10, 97] = some [97, 98, 99, 100] := by
    decide
  refine ⟨hfirst, (outgrown_closed_iff sampleHandler 4 2 (by decide) _).mpr fun message h => ?_⟩
  obtain rfl := Option.some.inj (hfirst.symm.trans h)
  decide

/-- Seven bytes without a newline, in reads of two. -/
def endlessSegments : List Bytes := [[97, 97], [97, 97], [97, 97], [97]]

/-- With a limit of 4 and reads of at most 2 bytes, seven bytes of one message are in `buffer_`, and
the session waits for its newline. -/
theorem unterminated_outgrows :
    (∀ segment ∈ endlessSegments, segment.length ≤ 2) ∧
    ∃ s, (start endlessSegments).run sampleHandler 4 [.receive, .receive, .receive, .receive] =
        some s ∧
      (unterminated s.buffer).length = 7 ∧ s.AwaitsNewline := by
  refine ⟨by decide, ⟨[97, 97, 97, 97, 97, 97, 97], [], .reading, [], []⟩, by decide, ?_, rfl, ?_⟩
  · decide
  · decide

end Session

end ConsoleCalculator
