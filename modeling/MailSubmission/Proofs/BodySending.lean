import MailSubmission.Proofs.BodyTransparency
import MailSubmission.Proofs.Conduct

set_option autoImplicit false

/-!
# A body on its way

What stands on the wire of a body at any moment is a beginning of the stuffed form of what
has been read from its sources, and the end of the body follows only when every source has
been read to its end.

A body goes out in pieces: what each read gave, stuffed, and then its end.  If the time runs out,
the tally counts the pieces that went out whole (`Body.StoppedAt`).
-/

namespace MailSubmission

/-! ## What a source hands over -/

/-- The octets that a source hands over until it first ends. -/
def Script.content : Script → List UInt8
  | [] => []
  | .data bs :: rest => if bs = [] then [] else bs ++ content rest
  | _ :: rest => content rest

/-- Each of the sources was read to its end: the reads gave its octets, and then none. -/
inductive Drained : List Script → List (List UInt8) → Prop where
  | nil : Drained [] []
  | cons {source : Script} {sources : List Script} {chunks reads : List (List UInt8)}
      (nonempty : [] ∉ chunks) (whole : chunks.flatten = source.content)
      (rest : Drained sources reads) : Drained (source :: sources) (chunks ++ [] :: reads)

theorem Drained.flatten_eq {sources : List Script} {reads : List (List UInt8)}
    (h : Drained sources reads) : reads.flatten = sources.flatMap Script.content := by
  induction h with
  | nil => rfl
  | cons _ whole _ ih =>
    rw [List.flatten_append, List.flatten_cons, List.nil_append, whole, ih, List.flatMap_cons]

/-- A read takes its octets from the front of what the source hands over. -/
theorem content_await {token : Token} {limit room : Nat} {source rest : Script}
    {net later : Network} {bs : List UInt8} (hroom : 0 < room)
    (h : Network.await token limit room source net = (.ready bs, rest, later)) :
    source.content = if bs = [] then [] else bs ++ rest.content := by
  induction source generalizing net with
  | nil =>
    simp only [Network.await, Prod.mk.injEq, Network.Arrival.ready.injEq] at h
    rw [if_pos h.1.symm]
    rfl
  | cons e tail ih =>
    cases e with
    | data ds =>
      by_cases hlen : ds.length ≤ room
      · simp only [Network.await, if_pos hlen, Prod.mk.injEq, Network.Arrival.ready.injEq] at h
        obtain ⟨rfl, rfl, -⟩ := h
        rfl
      · simp only [Network.await, if_neg hlen, Prod.mk.injEq, Network.Arrival.ready.injEq] at h
        obtain ⟨rfl, rfl, -⟩ := h
        have hds : ds ≠ [] := by
          rintro rfl
          exact hlen (Nat.zero_le room)
        have htake : ds.take room ≠ [] := by
          rw [Ne, List.take_eq_nil_iff, not_or]
          exact ⟨by omega, hds⟩
        have hdrop : ds.drop room ≠ [] := by
          rw [Ne, List.drop_eq_nil_iff]
          exact hlen
        simp only [Script.content, if_neg hds, if_neg htake, if_neg hdrop]
        rw [← List.append_assoc, List.take_append_drop]
    | error text => simp [Network.await] at h
    | cancel => exact ih h
    | hang =>
      simp only [Network.await] at h
      split at h <;> simp at h
    | due t =>
      simp only [Network.await] at h
      split at h
      · exact ih h
      · simp at h
    | delay ms =>
      simp only [Network.await] at h
      split at h
      · exact ih h
      · simp at h

/-! ## Pieces of a body -/

namespace Body

/-- The pieces in which a body goes out that begins at `p`: what each read gave, stuffed. -/
def pieces : Position → List (List UInt8) → List (List UInt8)
  | _, [] => []
  | p, read :: reads => stuff p read :: pieces (p.behind read) reads

theorem flatten_pieces (p : Position) (reads : List (List UInt8)) :
    (pieces p reads).flatten = stuff p reads.flatten := by
  induction reads generalizing p with
  | nil => rfl
  | cons read rest ih => rw [pieces, List.flatten_cons, List.flatten_cons, stuff_append, ih]

theorem pieces_append (p : Position) (reads reads' : List (List UInt8)) :
    pieces p (reads ++ reads') = pieces p reads ++ pieces (p.behind reads.flatten) reads' := by
  induction reads generalizing p with
  | nil => rfl
  | cons read rest ih =>
    rw [List.cons_append, pieces, pieces, ih, List.flatten_cons, behind_append, List.cons_append]

/-- What went out of the pieces that were written one after another, and how many octets the ones
have that went out whole. -/
inductive WentOut : List (List UInt8) → List UInt8 → Nat → Prop where
  /-- all of them did -/
  | whole (pieces : List (List UInt8)) : WentOut pieces pieces.flatten pieces.flatten.length
  /-- all but the last, of which a part did -/
  | cut (pieces : List (List UInt8)) {piece part : List UInt8} (hpart : part <+: piece)
      (hcut : part ≠ piece) : WentOut (pieces ++ [piece]) (pieces.flatten ++ part) pieces.flatten.length

/-- Pieces that went out before went out whole. -/
theorem WentOut.behind {pieces : List (List UInt8)} {wire : List UInt8} {k : Nat}
    (h : WentOut pieces wire k) (before : List (List UInt8)) :
    WentOut (before ++ pieces) (before.flatten ++ wire) (before.flatten.length + k) := by
  cases h with
  | whole =>
    rw [← List.flatten_append, ← List.length_append, ← List.flatten_append]
    exact .whole _
  | cut pieces hpart hcut =>
    rw [← List.append_assoc, ← List.append_assoc, ← List.flatten_append, ← List.length_append,
      ← List.flatten_append]
    exact .cut _ hpart hcut

/-- No more is counted than went out. -/
theorem WentOut.le_length {pieces : List (List UInt8)} {wire : List UInt8} {k : Nat}
    (h : WentOut pieces wire k) : k ≤ wire.length := by
  cases h with
  | whole => exact Nat.le_refl _
  | cut pieces hpart hcut =>
    rw [List.length_append]
    exact Nat.le_add_right _ _

end Body

namespace Link

open Run Body

/-- The link after part of a body was sent: the reads of its sources gave `reads`, and
`wire` went out. -/
def Streams (l later : Link) (reads : List (List UInt8)) (wire : List UInt8) : Prop :=
  ∃ es, l.Leads later es ∧ feedings es = reads ∧ octetsSent l.connection.socket.number es = wire

variable {l mid later : Link}

theorem Streams.trans {reads reads' : List (List UInt8)} {wire wire' : List UInt8}
    (h : l.Streams mid reads wire) (g : mid.Streams later reads' wire') :
    l.Streams later (reads ++ reads') (wire ++ wire') := by
  obtain ⟨es, hl, rfl, rfl⟩ := h
  obtain ⟨fs, gl, rfl, rfl⟩ := g
  exact ⟨es ++ fs, hl.trans gl, feedings_append es fs, by rw [octetsSent_append, hl.number]⟩

/-- A source is read. -/
theorem streams_fed (l : Link) (source : Script) {bs : List UInt8}
    (h : (feed source l).1 = .ready bs) :
    l.Streams (Link.note { l with net := (feed source l).2.2 } (.fed bs)) [bs] [] := by
  have hw := Network.waits_bounded l.net l.connection.token l.connection.timeout bodyRoom source
  have ht : (feed source l).1.trace = [] := by rw [h]; rfl
  unfold feed at ht
  rw [ht] at hw
  exact ⟨_, (leads_waits hw (by simp)).trans (leads_note _ trivial), rfl, rfl⟩

/-- A read of a source came to a halt. -/
theorem streams_halted (l : Link) (source : Script) {h : Halt Fault}
    (ht : h.trace = (feed source l).1.trace) :
    l.Streams { l with net := (feed source l).2.2 } [] [] := by
  have hw := Network.waits_bounded l.net l.connection.token l.connection.timeout bodyRoom source
  unfold feed at ht
  rw [← ht] at hw
  exact ⟨_, leads_waits hw h.eq_of_mem_trace, h.feedings_trace, h.octetsSent_trace _⟩

/-- What one read took from the front of a source. -/
theorem content_feed {source : Script} {l : Link} {bs : List UInt8}
    (h : (feed source l).1 = .ready bs) :
    source.content = if bs = [] then [] else bs ++ (feed source l).2.1.content := by
  unfold feed Network.bounded at h ⊢
  split at h
  · simp at h
  · rename_i hf
    rw [if_neg hf]
    exact content_await (by decide) (Prod.ext h rfl)

/-- Octets of a body go out. -/
theorem ends_writeAll_streams (bytes : List UInt8) (sent : Nat) (l : Link) :
    Ends (writeAll bytes .body sent) l
      (fun _ l' => l.Streams l' [] bytes)
      (fun h l' => ∃ wire, wire <+: bytes ∧ l.Streams l' [] wire ∧
        h.During .body fun n => n = sent ∧ wire ≠ bytes) := by
  apply (ends_writeAll_tally bytes .body sent l).mono
  · rintro _ l' ⟨pieces, rfl, hl⟩
    exact ⟨_, hl, feedings_takings _ _, octetsSent_takings _ _⟩
  · rintro h l' ⟨pieces, hprefix, hl, hd⟩
    refine ⟨pieces.flatten, hprefix, ⟨_, hl, ?_, ?_⟩, hd⟩
    · simp
    · simp

theorem ends_writeSource (sent : Nat) (p : Position) (source : Script) (l : Link) :
    Ends (writeSource sent p source) l
      (fun r l' => r = (sent + (stuff p source.content).length, p.behind source.content) ∧
        ∃ chunks, [] ∉ chunks ∧ chunks.flatten = source.content ∧
          l.Streams l' (chunks ++ [[]]) (stuff p source.content))
      (fun h l' => ∃ reads wire, reads.flatten <+: source.content ∧
        wire <+: stuff p reads.flatten ∧ l.Streams l' reads wire ∧
          h.During .body fun n => ∃ k, n = sent + k ∧ WentOut (pieces p reads) wire k) := by
  unfold Ends
  fun_induction writeSource sent p source l with
  | case1 sent p source l fed hfed =>
    have hc := content_feed hfed
    rw [if_pos rfl] at hc
    rw [hc]
    exact ⟨rfl, [], by simp, rfl, streams_fed l source hfed⟩
  | case2 sent p source l fed b bs hfed out halt later hw =>
    have hc := content_feed hfed
    rw [if_neg (by simp)] at hc
    obtain ⟨wire, hwire, hs, hd⟩ := (ends_writeAll_streams out sent _).of_error hw
    refine ⟨[b :: bs], wire, ?_, ?_, (streams_fed l source hfed).trans hs, ?_⟩
    · rw [hc, List.flatten_singleton]
      exact List.prefix_append _ _
    · rw [List.flatten_singleton]
      exact hwire
    · refine hd.mono fun n hn => ⟨0, hn.1, ?_⟩
      exact .cut [] hwire hn.2
  | case3 sent p source l fed b bs hfed out later hw ih =>
    have hc := content_feed hfed
    rw [if_neg (by simp)] at hc
    have hs : l.Streams later [b :: bs] out :=
      (streams_fed l source hfed).trans ((ends_writeAll_streams out sent _).of_ok hw)
    rw [hc, stuff_append, behind_append]
    have hrest : Ends (writeSource _ _ _) later _ _ := ih
    apply hrest.mono
    · rintro r l' ⟨rfl, chunks, hne, hflat, hl⟩
      refine ⟨?_, (b :: bs) :: chunks, ?_, ?_, hs.trans hl⟩
      · rw [List.length_append, Nat.add_assoc]
      · simpa using hne
      · rw [List.flatten_cons, hflat]
    · rintro h l' ⟨reads, wire, hreads, hwire, hl, hd⟩
      refine ⟨(b :: bs) :: reads, out ++ wire, ?_, ?_, hs.trans hl, ?_⟩
      · rw [List.flatten_cons]
        exact (List.prefix_append_right_inj _).mpr hreads
      · rw [List.flatten_cons, stuff_append]
        exact (List.prefix_append_right_inj _).mpr hwire
      · refine hd.mono fun n hn => ?_
        obtain ⟨k, rfl, hout⟩ := hn
        have hall := hout.behind [out]
        rw [List.flatten_singleton] at hall
        exact ⟨out.length + k, Nat.add_assoc _ _ _, hall⟩
  | case4 sent p source l fed o later hn hn' hc =>
    obtain ⟨-, rfl⟩ := conclude_eq_ok hc
    have ht : (Halt.failed (.timeout .body sent)).trace = (feed source l).1.trace :=
      (trace_of_conclude_eq_ok hc).symm
    exact ⟨[], [], List.nil_prefix, List.nil_prefix, streams_halted l source ht, rfl, 0, rfl, .whole []⟩
  | case5 sent p source l fed halt later hn hn' hc =>
    obtain ⟨rfl, ht, hd⟩ := conclude_eq_error hc
    exact ⟨[], [], List.nil_prefix, List.nil_prefix, streams_halted l source ht,
      (hd .body).mono fun _ hf => hf.elim⟩

theorem ends_writeSources (sent : Nat) (p : Position) (sources : List Script) (l : Link) :
    Ends (writeSources sent p sources) l
      (fun n l' => n = sent + (stuff p (sources.flatMap Script.content)).length ∧
        ∃ reads, Drained sources reads ∧ l.Streams l' reads (stuff p reads.flatten))
      (fun h l' => ∃ reads wire, reads.flatten <+: sources.flatMap Script.content ∧
        wire <+: stuff p reads.flatten ∧ l.Streams l' reads wire ∧
          h.During .body fun n => ∃ k, n = sent + k ∧ WentOut (pieces p reads) wire k) := by
  induction sources generalizing sent p l with
  | nil => exact ⟨rfl, [], .nil, [], .refl l, rfl, rfl⟩
  | cons source rest ih =>
    rw [writeSources, List.flatMap_cons]
    refine ends_bind.mpr ((ends_writeSource sent p source l).mono ?_ ?_)
    · rintro ⟨sent', p'⟩ mid ⟨he, chunks, hne, hflat, hmid⟩
      simp only [Prod.mk.injEq] at he
      obtain ⟨rfl, rfl⟩ := he
      apply (ih _ _ mid).mono
      · rintro n l' ⟨rfl, reads, hreads, hl⟩
        refine ⟨?_, chunks ++ [] :: reads, .cons hne hflat hreads, ?_⟩
        · rw [stuff_append, List.length_append, Nat.add_assoc]
        · have hall := hmid.trans hl
          rw [List.append_assoc] at hall
          rw [List.flatten_append, List.flatten_cons, List.nil_append, hflat, stuff_append]
          exact hall
      · rintro h l' ⟨reads, wire, hreads, hwire, hl, hd⟩
        refine ⟨chunks ++ [[]] ++ reads, stuff p source.content ++ wire, ?_, ?_, hmid.trans hl, ?_⟩
        · simp only [List.flatten_append, List.flatten_singleton, List.append_nil, hflat]
          exact (List.prefix_append_right_inj _).mpr hreads
        · simp only [List.flatten_append, List.flatten_singleton, List.append_nil, hflat, stuff_append]
          exact (List.prefix_append_right_inj _).mpr hwire
        · refine hd.mono fun n hn => ?_
          obtain ⟨k, rfl, hout⟩ := hn
          have hflat' : (chunks ++ [[]]).flatten = source.content := by
            rw [List.flatten_append, List.flatten_singleton, List.append_nil, hflat]
          have hall := hout.behind (pieces p (chunks ++ [[]]))
          rw [flatten_pieces, hflat'] at hall
          rw [pieces_append, hflat']
          exact ⟨(stuff p source.content).length + k, Nat.add_assoc _ _ _, hall⟩
    · rintro h l' ⟨reads, wire, hreads, hwire, hl, hd⟩
      exact ⟨reads, wire, hreads.trans (List.prefix_append _ _), hwire, hl, hd⟩

end Link

/-! ## The end of a body -/

/-- What may stand on the wire of a body of which `reads` has been read: a beginning of its
stuffed form; once every source has been read to its end, what ends the body may follow. -/
structure Body.OnWire (sources : List Script) (reads : List (List UInt8)) (wire : List UInt8) :
    Prop where
  handed : reads.flatten <+: sources.flatMap Script.content
  sent : wire <+: Body.stuff .lineStart reads.flatten ∨
    Drained sources reads ∧ wire <+: Body.encode reads.flatten

/-- Where the sending of a body stopped when the time ran out: of what the reads gave, the pieces
went out that had been written, and `k` octets are counted in these.  The last piece to be written
is the end of the body. -/
structure Body.StoppedAt (sources : List Script) (reads : List (List UInt8)) (wire : List UInt8)
    (k : Nat) : Prop where
  handed : reads.flatten <+: sources.flatMap Script.content
  sent : WentOut (pieces .lineStart reads) wire k ∨
    Drained sources reads ∧ WentOut (pieces .lineStart reads ++ [terminator]) wire k

namespace Body

variable {sources : List Script} {reads : List (List UInt8)} {wire : List UInt8}

theorem StoppedAt.le_length {k : Nat} (h : StoppedAt sources reads wire k) : k ≤ wire.length :=
  h.sent.elim (·.le_length) (·.2.le_length)

theorem onWire_nil (sources : List Script) : OnWire sources [] [] :=
  ⟨List.nil_prefix, .inl List.nil_prefix⟩

/-- The sources have been read to their ends. -/
theorem onWire_of_drained (hdrained : Drained sources reads) (h : wire <+: encode reads.flatten) :
    OnWire sources reads wire :=
  ⟨hdrained.flatten_eq ▸ List.prefix_refl _, .inr ⟨hdrained, h⟩⟩

theorem OnWire.prefix_encode (h : OnWire sources reads wire) : wire <+: encode reads.flatten := by
  rcases h.sent with h | ⟨-, h⟩
  · exact h.trans (List.prefix_append _ _)
  · exact h

/-- Only a body that is complete holds a line that is a single dot. -/
theorem OnWire.complete_of_dot (h : OnWire sources reads wire) (hd : [dot] ∈ lines wire) :
    Drained sources reads ∧ wire = encode reads.flatten := by
  have hall : wire = encode reads.flatten := eq_encode_of_dot_mem_lines h.prefix_encode hd
  rcases h.sent with h | ⟨hdrained, -⟩
  · have hlen := h.length_le
    rw [hall, encode, List.length_append] at hlen
    simp only [terminator, List.length_cons, List.length_nil] at hlen
    omega
  · exact ⟨hdrained, hall⟩

end Body

namespace Link

open Run Body

/-- A body goes out.  If the time runs out, the tally says where it stopped. -/
theorem ends_writeBody_tally (sources : List (Option Script)) (l : Link) :
    Ends (writeBody sources) l
      (fun n l' => n = (encode ((sources.filterMap id).flatMap Script.content)).length ∧
        ∃ reads, Drained (sources.filterMap id) reads ∧ l.Streams l' reads (encode reads.flatten))
      (fun h l' => ∃ reads wire, OnWire (sources.filterMap id) reads wire ∧ l.Streams l' reads wire ∧
        h.During .body (StoppedAt (sources.filterMap id) reads wire)) := by
  simp only [writeBody, ends_bind]
  apply (ends_writeSources 0 .lineStart (sources.filterMap id) l).mono
  · rintro n mid ⟨rfl, reads, hreads, hmid⟩
    have hsent : (stuff .lineStart ((sources.filterMap id).flatMap Script.content)).length =
        (pieces .lineStart reads).flatten.length := by
      rw [flatten_pieces, hreads.flatten_eq]
    rw [Nat.zero_add]
    refine (ends_writeAll_streams terminator _ mid).mono (fun _ last hlast => ?_) ?_
    · have hall : l.Streams last reads (encode reads.flatten) := by
        have h := hmid.trans hlast
        rw [List.append_nil] at h
        exact h
      have hlen : (stuff .lineStart ((sources.filterMap id).flatMap Script.content)).length +
          terminator.length = (encode reads.flatten).length := by
        rw [hreads.flatten_eq, encode, List.length_append]
      rw [hlen]
      refine (ends_flush .body _ last).mono (fun _ l' hl => ?_) fun h l' hl => ?_
      · refine ⟨by rw [hreads.flatten_eq], reads, hreads, ?_⟩
        have h : l.Streams l' (reads ++ []) (encode reads.flatten ++ []) :=
          hall.trans ⟨_, hl, rfl, rfl⟩
        simpa using h
      · refine ⟨reads, encode reads.flatten, onWire_of_drained hreads (List.prefix_refl _), ?_, ?_⟩
        · have hs : l.Streams l' (reads ++ []) (encode reads.flatten ++ []) :=
            hall.trans ⟨_, hl.1, h.feedings_trace, h.octetsSent_trace _⟩
          simpa using hs
        · refine hl.2.mono fun n hn => ⟨hreads.flatten_eq ▸ List.prefix_refl _, .inr ⟨hreads, ?_⟩⟩
          have hout := WentOut.whole (pieces .lineStart reads ++ [terminator])
          rw [List.flatten_append, List.flatten_singleton, flatten_pieces] at hout
          exact hn ▸ hout
    · rintro h l' ⟨wire, hwire, hl, hd⟩
      refine ⟨reads, stuff .lineStart reads.flatten ++ wire, onWire_of_drained hreads ?_, ?_, ?_⟩
      · exact (List.prefix_append_right_inj _).mpr hwire
      · have h := hmid.trans hl
        rw [List.append_nil] at h
        exact h
      · refine hd.mono fun n hn => ⟨hreads.flatten_eq ▸ List.prefix_refl _, .inr ⟨hreads, ?_⟩⟩
        have hout := WentOut.cut (pieces .lineStart reads) hwire hn.2
        rwa [← hsent, ← hn.1, flatten_pieces] at hout
  · rintro h l' ⟨reads, wire, hreads, hwire, hl, hd⟩
    refine ⟨reads, wire, ⟨hreads, .inl hwire⟩, hl, hd.mono fun n hn => ⟨hreads, .inl ?_⟩⟩
    obtain ⟨k, rfl, hout⟩ := hn
    rwa [Nat.zero_add]

theorem ends_writeBody (sources : List (Option Script)) (l : Link) :
    Ends (writeBody sources) l
      (fun n l' => n = (encode ((sources.filterMap id).flatMap Script.content)).length ∧
        ∃ reads, Drained (sources.filterMap id) reads ∧ l.Streams l' reads (encode reads.flatten))
      (fun h l' => ∃ reads wire, OnWire (sources.filterMap id) reads wire ∧ l.Streams l' reads wire ∧
        h.During .body (· ≤ wire.length)) := by
  refine (ends_writeBody_tally sources l).mono (fun _ _ hl => hl) ?_
  rintro h l' ⟨reads, wire, honWire, hl, hd⟩
  exact ⟨reads, wire, honWire, hl, hd.mono fun _ hn => hn.le_length⟩

end Link

end MailSubmission
