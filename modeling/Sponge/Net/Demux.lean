import Sponge.Net.TCPOverIP

/-!
What a `TCPOverIPv4Adapter` lets through when `unwrap_tcp_in_ip` runs on datagram after
datagram, as the adapter's reads do.

A bound adapter never changes and lets through exactly the segments that its datagrams
carry and that belong to its connection. A listening adapter lets nothing through and stays
as it is until the first datagram that carries a SYN without RST to its port. That segment
goes through, and the adapter is bound to the sender from then on (`unwrapAll_demux`).
-/

namespace Sponge
namespace TCPOverIPv4Adapter

/-- `unwrap_tcp_in_ip` on each datagram in turn: what it returns for each, and the adapter
after the last. -/
def unwrapAll (a : TCPOverIPv4Adapter) : List IPv4Datagram → List (Option TCPSegment) × TCPOverIPv4Adapter
  | [] => ([], a)
  | dg :: dgs =>
    let (seg?, a') := a.unwrapTcpInIp dg
    let (segs, a'') := unwrapAll a' dgs
    (seg? :: segs, a'')

/-- The segment a datagram carries as `unwrap_tcp_in_ip` reads it: the protocol is TCP and
the payload parses under the datagram's pseudo-header sum. -/
def Carries (dg : IPv4Datagram) (seg : TCPSegment) : Prop :=
  dg.header.proto = IPv4Header.protoTCP ∧
    ({} : TCPSegment).parse dg.payload dg.header.pseudoCksum = (.noError, seg)

/-- A datagram and its segment belong to the connection: from the destination's address
and port to the source's. -/
def Belongs (a : TCPOverIPv4Adapter) (dg : IPv4Datagram) (seg : TCPSegment) : Prop :=
  dg.header.src = a.config.destination.ipv4Numeric ∧ dg.header.dst = a.config.source.ipv4Numeric ∧
    seg.header.sport = a.config.destination.port ∧ seg.header.dport = a.config.source.port

/-- A segment that opens the connection of a listening adapter: a SYN without RST to its
port. -/
def Opens (a : TCPOverIPv4Adapter) (seg : TCPSegment) : Prop :=
  seg.header.dport = a.config.source.port ∧ seg.header.syn = true ∧ seg.header.rst = false

instance (dg : IPv4Datagram) (seg : TCPSegment) : Decidable (Carries dg seg) :=
  inferInstanceAs (Decidable (_ ∧ _))

instance (a : TCPOverIPv4Adapter) (dg : IPv4Datagram) (seg : TCPSegment) : Decidable (Belongs a dg seg) :=
  inferInstanceAs (Decidable (_ ∧ _))

instance (a : TCPOverIPv4Adapter) (seg : TCPSegment) : Decidable (Opens a seg) :=
  inferInstanceAs (Decidable (_ ∧ _))

/-- A listening adapter bound to the sender of a datagram and of its segment, which
becomes its peer. -/
def bindTo (a : TCPOverIPv4Adapter) (dg : IPv4Datagram) (seg : TCPSegment) : TCPOverIPv4Adapter :=
  { config :=
      { source := { ipv4Numeric := dg.header.dst, port := a.config.source.port }
        destination := { ipv4Numeric := dg.header.src, port := seg.header.sport } }
    listening := false }

@[simp] theorem unwrapAll_nil (a : TCPOverIPv4Adapter) : unwrapAll a [] = ([], a) := rfl

theorem unwrapAll_cons (a : TCPOverIPv4Adapter) (dg : IPv4Datagram) (dgs : List IPv4Datagram) :
    unwrapAll a (dg :: dgs) =
      ((a.unwrapTcpInIp dg).1 :: (unwrapAll (a.unwrapTcpInIp dg).2 dgs).1,
        (unwrapAll (a.unwrapTcpInIp dg).2 dgs).2) := rfl

theorem unwrapAll_append (a : TCPOverIPv4Adapter) (l₁ l₂ : List IPv4Datagram) :
    unwrapAll a (l₁ ++ l₂) =
      ((unwrapAll a l₁).1 ++ (unwrapAll (unwrapAll a l₁).2 l₂).1, (unwrapAll (unwrapAll a l₁).2 l₂).2) := by
  induction l₁ generalizing a with
  | nil => rfl
  | cons dg l₁ ih => rw [List.cons_append, unwrapAll_cons, unwrapAll_cons, ih]; rfl

theorem Belongs.bindTo {a : TCPOverIPv4Adapter} {dg : IPv4Datagram} {seg : TCPSegment} (h : Opens a seg) :
    Belongs (a.bindTo dg seg) dg seg :=
  ⟨rfl, rfl, rfl, h.1⟩

/-- A listening adapter lets through a segment that opens and binds to its sender. -/
theorem unwrapTcpInIp_of_opens {a : TCPOverIPv4Adapter} {dg : IPv4Datagram} {seg : TCPSegment}
    (hl : a.listening = true) (hc : Carries dg seg) (ho : Opens a seg) :
    a.unwrapTcpInIp dg = (some seg, a.bindTo dg seg) := by
  obtain ⟨hproto, hparse⟩ := hc
  obtain ⟨hdport, hsyn, hrst⟩ := ho
  simp only [unwrapTcpInIp, hl, hparse, hproto, hdport, hsyn, hrst, Bool.not_true, Bool.false_and,
    bne_self_eq_false, Bool.false_eq_true, if_false, if_true, Bool.not_false, Bool.and_true]
  rfl

/-- The three things one call of `unwrap_tcp_in_ip` does: drop the datagram and leave the
adapter as it is; let through the segment of its connection; or, listening, let through a
segment that opens and bind to its sender. -/
theorem unwrapTcpInIp_cases (a : TCPOverIPv4Adapter) (dg : IPv4Datagram) :
    a.unwrapTcpInIp dg = (none, a) ∨
    (∃ seg, a.listening = false ∧ Carries dg seg ∧ Belongs a dg seg ∧ a.unwrapTcpInIp dg = (some seg, a)) ∨
    (∃ seg, a.listening = true ∧ Carries dg seg ∧ Opens a seg ∧
      a.unwrapTcpInIp dg = (some seg, a.bindTo dg seg)) := by
  rcases hp : ({} : TCPSegment).parse dg.payload dg.header.pseudoCksum with ⟨res, seg⟩
  cases hl : a.listening
  · by_cases hc : Carries dg seg ∧ Belongs a dg seg
    · obtain ⟨⟨hproto, hparse⟩, hsrc, hdst, hsport, hdport⟩ := hc
      exact .inr (.inl ⟨seg, rfl, ⟨hproto, hparse⟩, ⟨hsrc, hdst, hsport, hdport⟩,
        unwrapTcpInIp_eq a dg seg hl hdst hsrc hproto hparse hdport hsport⟩)
    · refine .inl ?_
      simp only [unwrapTcpInIp, hl, hp, Bool.not_false, Bool.true_and, bne_iff_ne, ne_eq,
        Bool.false_eq_true, if_false, ite_not]
      simp only [Carries, Belongs, hp, Prod.mk.injEq] at hc
      split_ifs <;> simp_all
  · by_cases hc : Carries dg seg ∧ Opens a seg
    · exact .inr (.inr ⟨seg, rfl, hc.1, hc.2, unwrapTcpInIp_of_opens hl hc.1 hc.2⟩)
    · refine .inl ?_
      simp only [unwrapTcpInIp, hl, hp, Bool.not_true, Bool.false_and, bne_iff_ne, ne_eq,
        Bool.false_eq_true, if_false, if_true, ite_not]
      simp only [Carries, Opens, hp, Prod.mk.injEq] at hc
      split_ifs <;> simp_all

/-- A bound adapter stays as it is, and lets a segment through exactly when its datagram
carries it and it belongs to the connection. -/
theorem unwrapTcpInIp_bound {a : TCPOverIPv4Adapter} (hl : a.listening = false) (dg : IPv4Datagram) :
    (a.unwrapTcpInIp dg).2 = a ∧
      ∀ seg, (a.unwrapTcpInIp dg).1 = some seg ↔ Carries dg seg ∧ Belongs a dg seg := by
  rcases unwrapTcpInIp_cases a dg with h | ⟨seg', -, hc, hb, h⟩ | ⟨seg', hl', -⟩
  · refine ⟨by rw [h], fun seg => ⟨fun hs => by simp [h] at hs, fun ⟨hc, hb⟩ => ?_⟩⟩
    obtain ⟨⟨hproto, hparse⟩, hsrc, hdst, hsport, hdport⟩ := And.intro hc hb
    rw [unwrapTcpInIp_eq a dg seg hl hdst hsrc hproto hparse hdport hsport]
  · refine ⟨by rw [h], fun seg => ⟨fun hs => ?_, fun ⟨hc', _⟩ => ?_⟩⟩
    · rw [h, Option.some.injEq] at hs
      exact hs ▸ ⟨hc, hb⟩
    · rw [h, Option.some.injEq]
      exact Prod.mk.inj (hc.2.symm.trans hc'.2) |>.2
  · exact absurd hl' (by simp [hl])

/-- A listening adapter drops a datagram that carries no segment that opens, and stays as
it is. -/
theorem unwrapTcpInIp_quiet {a : TCPOverIPv4Adapter} (hl : a.listening = true) {dg : IPv4Datagram}
    (hq : ∀ seg, Carries dg seg → ¬Opens a seg) : a.unwrapTcpInIp dg = (none, a) := by
  rcases unwrapTcpInIp_cases a dg with h | ⟨_, hl', -⟩ | ⟨seg, -, hc, ho, -⟩
  · exact h
  · exact absurd hl' (by simp [hl])
  · exact absurd ho (hq seg hc)

theorem unwrapAll_of_bound {a : TCPOverIPv4Adapter} (hl : a.listening = false) (dgs : List IPv4Datagram) :
    unwrapAll a dgs = (dgs.map fun dg => (a.unwrapTcpInIp dg).1, a) := by
  induction dgs with
  | nil => rfl
  | cons dg dgs ih => rw [unwrapAll_cons, (unwrapTcpInIp_bound hl dg).1, ih]; rfl

theorem unwrapAll_quiet {a : TCPOverIPv4Adapter} (hl : a.listening = true) {dgs : List IPv4Datagram}
    (hq : ∀ dg ∈ dgs, ∀ seg, Carries dg seg → ¬Opens a seg) : unwrapAll a dgs = (dgs.map fun _ => none, a) := by
  induction dgs with
  | nil => rfl
  | cons dg dgs ih =>
    rw [unwrapAll_cons, unwrapTcpInIp_quiet hl (hq dg List.mem_cons_self),
      ih fun d hd => hq d (List.mem_cons_of_mem dg hd)]
    rfl

/-- **The adapter lets through one connection.** Over any sequence of datagrams, a bound
adapter never changes and lets through exactly the segments its datagrams carry that
belong to its connection. A listening adapter lets nothing through and stays as it is while
no datagram carries a SYN without RST to its port; the first that does is let through and
binds the adapter to its sender, whose datagram then belongs to the connection, and the
bound adapter takes over. -/
theorem unwrapAll_demux (a : TCPOverIPv4Adapter) (dgs : List IPv4Datagram) :
    (a.listening = false →
      unwrapAll a dgs = (dgs.map fun dg => (a.unwrapTcpInIp dg).1, a) ∧
      ∀ dg seg, (a.unwrapTcpInIp dg).1 = some seg ↔ Carries dg seg ∧ Belongs a dg seg) ∧
    (a.listening = true → (∀ dg ∈ dgs, ∀ seg, Carries dg seg → ¬Opens a seg) →
      unwrapAll a dgs = (dgs.map fun _ => none, a)) ∧
    (a.listening = true → ∀ pre dg post seg, dgs = pre ++ dg :: post →
      (∀ d ∈ pre, ∀ s, Carries d s → ¬Opens a s) → Carries dg seg → Opens a seg →
      Belongs (a.bindTo dg seg) dg seg ∧
      unwrapAll a dgs = (pre.map (fun _ => none) ++
        some seg :: post.map (fun d => ((a.bindTo dg seg).unwrapTcpInIp d).1), a.bindTo dg seg)) := by
  refine ⟨fun hl => ⟨unwrapAll_of_bound hl dgs, fun dg => (unwrapTcpInIp_bound hl dg).2⟩,
    fun hl hq => unwrapAll_quiet hl hq, ?_⟩
  intro hl pre dg post seg hdgs hpre hc ho
  refine ⟨Belongs.bindTo ho, ?_⟩
  rw [hdgs, unwrapAll_append, unwrapAll_quiet hl hpre, unwrapAll_cons, unwrapTcpInIp_of_opens hl hc ho,
    unwrapAll_of_bound rfl post]

/-- A listening adapter on port 1 drops a datagram that carries nothing, then lets through
the SYN that the peer at 2:2 wraps, and is bound to it. -/
theorem unwrapAll_demux_open :
    let a : TCPOverIPv4Adapter := { config := { source := ⟨0, 1⟩ }, listening := true }
    let peer : TCPOverIPv4Adapter := { config := { source := ⟨2, 2⟩, destination := ⟨1, 1⟩ } }
    let dg : IPv4Datagram := (peer.wrapTcpInIp { header := { syn := true } }).2.toOption.getD {}
    let seg : TCPSegment := (({} : TCPSegment).parse dg.payload dg.header.pseudoCksum).2
    ((∀ s, Carries {} s → ¬Opens a s) ∧ Carries dg seg ∧ Opens a seg) ∧
      Belongs (a.bindTo dg seg) dg seg ∧ unwrapAll a [{}, dg] = ([none, some seg], a.bindTo dg seg) := by
  intro a peer dg seg
  have hjunk : ∀ s, Carries {} s → ¬Opens a s := by
    intro s hc
    have hfail : (({} : TCPSegment).parse [] ({} : IPv4Header).pseudoCksum).1 ≠ .noError := by decide
    exact absurd (congrArg Prod.fst hc.2) hfail
  have hopen : Carries dg seg ∧ Opens a seg := by decide +kernel
  exact ⟨⟨hjunk, hopen⟩, unwrapAll_demux a [{}, dg] |>.2.2 rfl [{}] dg [] seg rfl
    (fun d hd => (List.mem_singleton.1 hd) ▸ hjunk) hopen.1 hopen.2⟩

end TCPOverIPv4Adapter
end Sponge
