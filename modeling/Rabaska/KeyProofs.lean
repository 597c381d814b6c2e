import Rabaska.CompressionProofs
import Rabaska.Convergence
import Rabaska.StepProofs

/-! What becomes of a transfer whose key comes late. -/

namespace Rabaska.Pipeline

open Call Wire Dedup Receiver

variable {crates : Crates} {code : Fountain.Code Bytes} {pool : List Bytes} {object : Bytes}

/-- What is relied on of RaptorQ here: at every packet, the decoder gives the object exactly when the
distinct packets fed to it suffice, also when it has given it before. -/
structure Reassembles (crates : Crates) (code : Fountain.Code Bytes) (oti : Octets 12)
    (pool : List Bytes) (object : Bytes) : Prop where
  starts : ∃ start, crates.newDecoder oti = some start
  decodes : ∀ start fed packet, crates.newDecoder oti = some start → (fed ++ [packet]).Nodup →
    (∀ p ∈ fed ++ [packet], p ∈ pool) →
    ∃ dec next out, feed crates start fed = some dec ∧ crates.decode dec packet = some (next, out) ∧
      (code.Suffices {p | p ∈ fed ++ [packet]} → out = some object) ∧
      (¬code.Suffices {p | p ∈ fed ++ [packet]} → out = none)

theorem decodeUntil_fed {oti : Octets 12} (reassembles : Reassembles crates code oti pool object)
    {start dec : crates.Decoder} (started : crates.newDecoder oti = some start) {fed : List Bytes}
    (fedAll : feed crates start fed = some dec) (news : List Bytes) (nodup : (fed ++ news).Nodup)
    (inside : ∀ p ∈ fed ++ news, p ∈ pool) :
    ∃ dec' out more, decodeUntil crates dec news = some (dec', out) ∧
      feed crates start (fed ++ more) = some dec' ∧ more.Sublist news ∧
      ((out = none ∧ more = news ∧ (news ≠ [] → ¬code.Suffices {p | p ∈ fed ++ news})) ∨
        (out = some object ∧ news ≠ [] ∧ code.Suffices {p | p ∈ fed ++ more})) := by
  induction news generalizing fed dec with
  | nil => exact ⟨dec, none, [], rfl, by rwa [List.append_nil], .slnil, .inl ⟨rfl, rfl, by simp⟩⟩
  | cons packet news ih =>
      have shape : fed ++ packet :: news = fed ++ [packet] ++ news := by simp
      rw [shape] at nodup inside
      obtain ⟨dec', next, out, fed', decoded, enough, lacking⟩ :=
        reassembles.decodes start fed packet started (List.nodup_append.mp nodup).1
          (fun p member => inside p (List.mem_append_left _ member))
      obtain rfl : dec' = dec := Option.some_inj.mp (fed'.symm.trans fedAll)
      have fedNext := feed_snoc fedAll decoded
      by_cases suffices' : code.Suffices {p | p ∈ fed ++ [packet]}
      · obtain rfl := enough suffices'
        exact ⟨next, some object, [packet], decodeUntil_complete decoded news, fedNext,
          by simp, .inr ⟨rfl, by simp, suffices'⟩⟩
      · obtain rfl := lacking suffices'
        obtain ⟨last, out, more, scanned, fedLast, sub, outcome⟩ := ih fedNext nodup inside
        rw [List.append_assoc, List.singleton_append] at fedLast
        refine ⟨last, out, packet :: more, (decodeUntil_quiet decoded news).trans scanned, fedLast,
          sub.cons_cons packet, ?_⟩
        rw [shape, show fed ++ packet :: more = fed ++ [packet] ++ more by simp]
        rcases outcome with ⟨rfl, rfl, still⟩ | ⟨rfl, -, enough⟩
        · refine .inl ⟨rfl, rfl, fun _ => ?_⟩
          cases more with
          | nil => rwa [List.append_nil]
          | cons => exact still (by simp)
        · exact .inr ⟨rfl, by simp, enough⟩

section Seen

variable {rx : Receiver crates}

theorem seen_of_learned (genuine : PacketPool pool) {items : List Bytes}
    (inside : ∀ p ∈ items, p ∈ pool) {p : Bytes} (member : p ∈ pool) {id : Octets 4}
    (identified : payloadId p = some id) : id ∈ learn payloadId ∅ items ↔ p ∈ items := by
  rw [mem_learn]
  constructor
  · rintro (impossible | ⟨q, found, same⟩)
    · simp at impossible
    · obtain ⟨own, identified', front⟩ := genuine.payloadId member
      obtain ⟨other, same', front'⟩ := genuine.payloadId (inside q found)
      obtain rfl := Option.some_inj.mp (identified.symm.trans identified')
      obtain rfl := Option.some_inj.mp (same.symm.trans same')
      rwa [genuine.same member (inside q found) (front.symm.trans front')]
  · exact fun found => .inr ⟨p, found, identified⟩

theorem mem_news (genuine : PacketPool pool) (sane : Sane rx) (seen : ∀ p ∈ rx.seen, p ∈ pool)
    {queued : List Bytes} (inside : ∀ p ∈ queued, p ∈ pool) {p : Bytes}
    (member : p ∈ fresh payloadId rx.ids queued) : p ∈ pool ∧ p ∉ rx.seen := by
  obtain ⟨found, id, identified, absent⟩ := mem_fresh member
  refine ⟨inside p found, fun before => absent ?_⟩
  rw [sane.ids]
  exact (seen_of_learned genuine seen (inside p found) identified).mpr before

theorem queued_seen (genuine : PacketPool pool) (sane : Sane rx) (seen : ∀ p ∈ rx.seen, p ∈ pool)
    {queued : List Bytes} (inside : ∀ p ∈ queued, p ∈ pool) {p : Bytes} (member : p ∈ queued) :
    p ∈ rx.seen ++ fresh payloadId rx.ids queued := by
  have all : ∀ q ∈ rx.seen ++ fresh payloadId rx.ids queued, q ∈ pool := by
    intro q either
    rcases List.mem_append.mp either with before | now
    · exact seen q before
    · exact inside q (mem_fresh now).1
  obtain ⟨id, identified, -⟩ := genuine.payloadId (inside p member)
  refine (seen_of_learned genuine all (inside p member) identified).mp ?_
  rw [learn_append, ← sane.ids, learn_fresh, mem_learn]
  exact .inr ⟨p, member, identified⟩

end Seen

section Transfer

variable (code) (tx : Transmitter) (key : Crypto.SessionKey) (object plaintext : Bytes)

structure Fed (rx : Receiver crates) (fed : List Bytes) : Prop where
  decoder : ∃ start dec, crates.newDecoder tx.beacon.oti = some start ∧
    feed crates start fed = some dec ∧ rx.decoder = some dec
  nodup : fed.Nodup
  subset : ∀ p ∈ fed, p ∈ rx.seen
  lacking : ¬code.Suffices {p | p ∈ fed} → fed = rx.seen

/-- A receiver of the transmitter's frames that has not delivered: once the packets fed suffice, only
what is in `base` has been seen. -/
structure Gathering (base : Set Bytes) (rx : Receiver crates) : Prop where
  sane : Sane rx
  running : rx.done = false
  own : ∀ b, rx.beacon = some b → b = tx.beacon
  parked : ∀ entry ∈ rx.pending, entry.1 = sid4 tx.beacon.sessionId ∧ entry.2 ∈ tx.packets
  inPool : ∀ p ∈ rx.seen, p ∈ tx.packets
  fed : ∀ b, rx.beacon = some b → ∃ fed, Fed code tx rx fed ∧
    (code.Suffices {p | p ∈ fed} → ∀ p ∈ rx.seen, p ∈ base)

def Keyed (crates : Crates) (base : Set Bytes) (held : Option Crypto.SessionKey) : Prop :=
  held = some key ∧ openObject crates key tx.beacon object = .ok plaintext ∨
    base = Set.univ ∧ ∀ k ∈ held, ∃ error, openObject crates k tx.beacon object = .error error

inductive Gathers (base : Set Bytes) (rx : Receiver crates) (packets : List Bytes)
    (answers : List (Option (Except Error Ingest))) (next : Receiver crates) : Prop
  | delivered : some (.ok (.done plaintext)) ∈ answers → next.done = true → rx.key = some key →
      openObject crates key tx.beacon object = .ok plaintext → (∃ p ∈ tx.packets, p ∉ rx.seen) →
      Gathers base rx packets answers next
  | gathered : (∀ p, some (.ok (.done p)) ∉ answers) → Gathering code tx base next →
      next.key = rx.key → (∀ p ∈ rx.seen, p ∈ next.seen) →
      (∀ b, rx.beacon = some b → next.beacon = some b ∧ ∀ p ∈ packets, p ∈ next.seen) →
      Gathers base rx packets answers next

variable {code tx key object plaintext}

theorem Fed.extend {rx next : Receiver crates} {fed : List Bytes} (before : Fed code tx rx fed)
    {more news : List Bytes} {start dec : crates.Decoder}
    (started : crates.newDecoder tx.beacon.oti = some start)
    (fedAll : feed crates start (fed ++ more) = some dec) (held : next.decoder = some dec)
    (seen : next.seen = rx.seen ++ news) (nodup : (fed ++ news).Nodup) (sub : more.Sublist news)
    (all : ¬code.Suffices {p | p ∈ fed ++ more} → more = news) : Fed code tx next (fed ++ more) := by
  refine ⟨⟨start, dec, started, fedAll, held⟩, nodup.sublist (sub.append_left fed), ?_, ?_⟩
  · intro p either
    rw [seen]
    rcases List.mem_append.mp either with earlier | now
    · exact List.mem_append_left _ (before.subset p earlier)
    · exact List.mem_append_right _ (sub.subset now)
  · intro short
    have fewer : ¬code.Suffices {p | p ∈ fed} :=
      fun enough => short (code.mono (fun p member => List.mem_append_left _ member) enough)
    rw [seen, all short, before.lacking fewer]

section Absorbed

variable {base : Set Bytes} {rx next : Receiver crates} {dec' : crates.Decoder} {queued : List Bytes}

theorem Gathering.news (genuine : PacketPool tx.packets) (gathering : Gathering code tx base rx)
    {fed : List Bytes} (before : Fed code tx rx fed) (all : ∀ p ∈ queued, p ∈ tx.packets) :
    (fed ++ fresh payloadId rx.ids queued).Nodup ∧
      ∀ p ∈ fed ++ fresh payloadId rx.ids queued, p ∈ tx.packets := by
  refine ⟨List.nodup_append.mpr ⟨before.nodup, fresh_nodup _ _, ?_⟩, fun p either => ?_⟩
  · rintro p earlier q now rfl
    exact (mem_news genuine gathering.sane gathering.inPool all now).2 (before.subset p earlier)
  · rcases List.mem_append.mp either with earlier | now
    · exact gathering.inPool p (before.subset p earlier)
    · exact all p (mem_fresh now).1

theorem Gathering.counted (genuine : PacketPool tx.packets) (gathering : Gathering code tx base rx)
    (known : rx.beacon = some tx.beacon) (all : ∀ p ∈ queued, p ∈ tx.packets)
    (counts : next = ({ rx with pending := [] } : Receiver crates).counted queued dec')
    {fed packets : List Bytes} (extended : Fed code tx next fed)
    (limited : code.Suffices {p | p ∈ fed} → ∀ p ∈ next.seen, p ∈ base)
    (brought : ∀ p ∈ packets, p ∈ queued) {result : Except Error Ingest}
    (quiet : ∀ p, result ≠ .ok (.done p)) :
    Gathers code tx key object plaintext base rx packets [some result] next := by
  obtain ⟨sane, running, own, -, inPool, -⟩ := gathering
  have seen : next.seen = rx.seen ++ fresh payloadId rx.ids queued := by rw [counts]; rfl
  have beacon : next.beacon = rx.beacon := by rw [counts]; rfl
  refine .gathered (fun p told => ?_) ⟨?_, ?_, ?_, ?_, ?_, fun _ _ => ⟨fed, extended, limited⟩⟩ ?_ ?_ ?_
  · exact quiet p (Option.some_inj.mp (List.mem_singleton.mp told)).symm
  · rw [counts]
    exact sane.counted known queued dec' rx.done
  · rw [counts]
    exact running
  · rw [beacon]
    exact own
  · rw [counts]
    simp [Receiver.counted]
  · intro p either
    rw [seen] at either
    rcases List.mem_append.mp either with earlier | now
    · exact inPool p earlier
    · exact all p (mem_fresh now).1
  · rw [counts]
    rfl
  · intro p earlier
    rw [seen]
    exact List.mem_append_left _ earlier
  · intro b known'
    refine ⟨beacon.trans known', fun p member => ?_⟩
    rw [seen]
    exact queued_seen genuine sane inPool all (brought p member)

theorem Gathering.absorb (genuine : PacketPool tx.packets)
    (reassembles : Reassembles crates code tx.beacon.oti tx.packets object)
    (gathering : Gathering code tx base rx) (known : rx.beacon = some tx.beacon)
    (keyed : Keyed tx key object plaintext crates base rx.key) {packets : List Bytes}
    (inside : ∀ p ∈ packets, p ∈ tx.packets) :
    ∃ result next, rx.absorb packets = some (result, next) ∧
      Gathers code tx key object plaintext base rx packets [some result] next := by
  obtain ⟨fed, before, held⟩ := gathering.fed tx.beacon known
  obtain ⟨start, dec, started, fedAll, decoder⟩ := before.decoder
  have all : ∀ p ∈ rx.queued tx.beacon packets, p ∈ tx.packets := by
    intro p either
    rcases mem_queued either with early | now
    · exact (gathering.parked _ early).2
    · exact inside p now
  have brought : ∀ p ∈ packets, p ∈ rx.queued tx.beacon packets :=
    fun p member => List.mem_append_right _ member
  obtain ⟨nodup, pool⟩ := gathering.news genuine before all
  obtain ⟨dec', out, more, scanned, fedMore, sub, outcome⟩ :=
    decodeUntil_fed reassembles started fedAll _ nodup pool
  obtain ⟨next, counts⟩ : ∃ next, next = ({ rx with pending := [] } : Receiver crates).counted
    (rx.queued tx.beacon packets) dec' := ⟨_, rfl⟩
  have closed : rx.absorb packets = some (next.conclude tx.beacon out) := by
    rw [absorb_closed known decoder packets, scanned, counts]
    rfl
  have seen : next.seen = rx.seen ++ fresh payloadId rx.ids (rx.queued tx.beacon packets) := by
    rw [counts]
    rfl
  have key' : next.key = rx.key := by rw [counts]; rfl
  have extended := fun whole => before.extend started fedMore (by rw [counts]; rfl) seen
    nodup sub whole
  rcases outcome with ⟨rfl, rfl, short⟩ | ⟨rfl, some', enough⟩
  · refine ⟨_, _, closed, gathering.counted genuine known all counts (extended fun _ => rfl)
      (fun enough p member => ?_) brought (by simp)⟩
    by_cases none : fresh payloadId rx.ids (rx.queued tx.beacon packets) = []
    · rw [none, List.append_nil] at enough
      rw [seen, none, List.append_nil] at member
      exact held enough p member
    · exact absurd enough (short none)
  · have extended := extended fun short => absurd enough short
    rcases keyed with ⟨keyed, opens⟩ | ⟨rfl, refused⟩
    · simp only [conclude, key', keyed, opens] at closed
      obtain ⟨p, member⟩ := List.exists_mem_of_ne_nil _ some'
      have unseen := mem_news genuine gathering.sane gathering.inPool all member
      exact ⟨_, _, closed, .delivered (by simp) rfl keyed opens ⟨p, unseen⟩⟩
    · cases keyed : rx.key with
      | none =>
          simp only [conclude, key', keyed] at closed
          exact ⟨_, _, closed, gathering.counted genuine known all counts extended
            (fun _ _ _ => trivial) brought (by simp)⟩
      | some k =>
          obtain ⟨error, failed⟩ := refused k keyed
          simp only [conclude, key', keyed, failed] at closed
          exact ⟨_, _, closed, gathering.counted genuine known all counts extended
            (fun _ _ _ => trivial) brought (by simp)⟩

end Absorbed

theorem carried_beacon (b : Beacon) : carried crates (b.encode crates) = [] := by
  unfold carried
  split
  · rename_i sf decoded
    have said := read_beacon (Beacon.decode_encode crates b)
    exact absurd ((read_symbol decoded).symm.trans said) (by simp)
  · rfl

theorem Gathering.ingest {base : Set Bytes} {rx : Receiver crates} (genuine : PacketPool tx.packets)
    (reassembles : Reassembles crates code tx.beacon.oti tx.packets object) (sound : Sound crates tx)
    (gathering : Gathering code tx base rx)
    (keyed : Keyed tx key object plaintext crates base rx.key) {frame : Frame}
    (drawn : tx.Genuine crates frame) :
    ∃ result next, rx.ingest frame.bytes = some (result, next) ∧
      Gathers code tx key object plaintext base rx (carried crates frame.bytes) [some result] next := by
  have running := gathering.running
  cases drawn with
  | beacon =>
      rw [Frame.bytes, sound.encodes, ingest_beacon running, carried_beacon]
      cases known : rx.beacon with
      | some b =>
          obtain rfl := gathering.own b known
          rw [ingestBeacon_known known, if_pos rfl]
          refine ⟨_, _, rfl, .gathered (by simp) gathering rfl (fun _ member => member) ?_⟩
          exact fun b known => ⟨known, by simp⟩
      | none =>
          obtain ⟨start, started⟩ := reassembles.starts
          rw [ingestBeacon_unknown known, started]
          have unseen := (gathering.sane.unheard known).2.1
          have acquired : Steps rx (.ingest (tx.beacon.encode crates)) { rx with
              needed := symbolsNeeded crates tx.beacon.oti, decoder := some start,
              beacon := some tx.beacon } := .acquired tx.beacon start known started
          refine ⟨_, _, rfl, .gathered (by simp) ⟨gathering.sane.steps acquired, running, ?_,
            gathering.parked, gathering.inPool, ?_⟩ rfl (fun _ member => member) (by simp [known])⟩
          · rintro b ⟨rfl⟩
            rfl
          · refine fun _ _ => ⟨[], ⟨⟨start, start, started, rfl, rfl⟩, by simp, by simp, ?_⟩, ?_⟩
            · exact fun _ => unseen.symm
            · intro _ p member
              simp [unseen] at member
  | symbol sf session len kept count member =>
      have wellFormed := sound.wellFormed len count member
      rw [Frame.bytes, ingest_symbol running wellFormed, carried_symbol wellFormed]
      cases known : rx.beacon with
      | some b =>
          obtain rfl := gathering.own b known
          rw [ingestSymbol_known known session]
          exact gathering.absorb genuine reassembles known keyed member
      | none =>
          rw [ingestSymbol_early known]
          refine ⟨_, _, rfl, .gathered (by simp) ⟨gathering.sane.of_same rfl rfl rfl rfl rfl rfl, running,
            gathering.own, ?_, gathering.inPool, ?_⟩ rfl (fun _ member => member) (by simp [known])⟩
          · intro entry either
            rcases List.mem_append.mp either with before | now
            · exact gathering.parked entry before
            · obtain ⟨p, inside, rfl⟩ := List.mem_map.mp now
              exact ⟨session, member p inside⟩
          · exact fun b impossible => absurd (known.symm.trans impossible) (by simp)

theorem Gathering.setKey {base later : Set Bytes} {rx : Receiver crates}
    (gathering : Gathering code tx base rx) (key : Crypto.SessionKey)
    (within : ∀ p ∈ rx.seen, p ∈ later) : Gathering code tx later (rx.setKey key) := by
  obtain ⟨sane, running, own, parked, inPool, holds⟩ := gathering
  refine ⟨sane.of_same rfl rfl rfl rfl rfl rfl, running, own, parked, inPool, fun b known => ?_⟩
  obtain ⟨fed, before, -⟩ := holds b known
  exact ⟨fed, ⟨before.decoder, before.nodup, before.subset, before.lacking⟩, fun _ => within⟩

theorem gathering_new : Gathering code tx Set.univ (new crates) :=
  ⟨sane_new, rfl, by simp [new], by simp [new], by simp [new], by simp [new]⟩

def sent (frames : List Frame) : List Input := frames.map fun frame => .ingest frame.bytes

theorem ignored_run {rx : Receiver crates} (done : rx.done = true) (frames : List Frame) :
    ∃ trace, Machine.Run respond rx trace rx ∧ trace.map Prod.fst = sent frames := by
  induction frames with
  | nil => exact ⟨[], .nil rx, rfl⟩
  | cons frame frames ih =>
      obtain ⟨trace, run, shape⟩ := ih
      have stepped : rx.respond (.ingest frame.bytes) = some (some (.ok .ignored), rx) := by
        simp [respond, Receiver.ingest, done]
      exact ⟨_, .cons stepped run, congrArg (_ :: ·) shape⟩

theorem Gathers.after {base : Set Bytes} {rx next final : Receiver crates} {packets more : List Bytes}
    {answer : Option (Except Error Ingest)} {answers : List (Option (Except Error Ingest))}
    (quiet : ∀ p, some (.ok (.done p)) ∉ [answer]) (key' : next.key = rx.key)
    (seen : ∀ p ∈ rx.seen, p ∈ next.seen)
    (heard : ∀ b, rx.beacon = some b → next.beacon = some b ∧ ∀ p ∈ packets, p ∈ next.seen)
    (rest : Gathers code tx key object plaintext base next more answers final) :
    Gathers code tx key object plaintext base rx (packets ++ more) (answer :: answers) final := by
  cases rest with
  | delivered told done keyed opens unseen =>
      obtain ⟨p, member, absent⟩ := unseen
      exact .delivered (List.mem_cons_of_mem _ told) done (key'.symm.trans keyed) opens
        ⟨p, member, fun before => absent (seen p before)⟩
  | gathered quiet' gathering key'' seen' heard' =>
      refine .gathered ?_ gathering (key''.trans key') (fun p before => seen' p (seen p before)) ?_
      · intro p either
        rcases List.mem_cons.mp either with now | later
        · exact quiet p (List.mem_singleton.mpr now)
        · exact quiet' p later
      · intro b known
        obtain ⟨known', now⟩ := heard b known
        obtain ⟨known'', later⟩ := heard' b known'
        refine ⟨known'', fun p either => ?_⟩
        rcases List.mem_append.mp either with first | rest
        · exact seen' p (now p first)
        · exact later p rest

theorem gather_run {base : Set Bytes} {rx : Receiver crates} (genuine : PacketPool tx.packets)
    (reassembles : Reassembles crates code tx.beacon.oti tx.packets object) (sound : Sound crates tx)
    (gathering : Gathering code tx base rx)
    (keyed : Keyed tx key object plaintext crates base rx.key) (frames : List Frame)
    (drawn : ∀ frame ∈ frames, tx.Genuine crates frame) :
    ∃ trace final, Machine.Run respond rx trace final ∧ trace.map Prod.fst = sent frames ∧
      Gathers code tx key object plaintext base rx (frames.flatMap fun frame => carried crates frame.bytes)
        (trace.map Prod.snd) final := by
  induction frames generalizing rx with
  | nil =>
      exact ⟨[], rx, .nil rx, rfl, .gathered (by simp) gathering rfl (fun _ member => member)
        fun _ known => ⟨known, by simp⟩⟩
  | cons frame frames ih =>
      obtain ⟨now, later⟩ := List.forall_mem_cons.mp drawn
      obtain ⟨result, next, ingested, first⟩ :=
        gathering.ingest genuine reassembles sound keyed now
      have stepped : rx.respond (.ingest frame.bytes) = some (some result, next) := by
        rw [respond, ingested]
        rfl
      cases first with
      | delivered told done keyed opens unseen =>
          obtain ⟨trace, run, shape⟩ := ignored_run done frames
          refine ⟨_, next, .cons stepped run, congrArg (_ :: ·) shape,
            .delivered ?_ done keyed opens unseen⟩
          rw [List.map_cons, ← List.mem_singleton.mp told]
          exact List.mem_cons_self
      | gathered quiet gathering key' seen heard =>
          obtain ⟨trace, final, run, shape, rest⟩ := ih gathering (by rwa [key']) later
          exact ⟨_, final, .cons stepped run, congrArg (_ :: ·) shape, rest.after quiet key' seen heard⟩

theorem Gathering.all_seen {base : Set Bytes} {rx next : Receiver crates}
    (gathering : Gathering code tx base rx) (enough : code.Suffices {p | p ∈ rx.seen})
    (after : Gathering code tx base next) (seen : ∀ p ∈ rx.seen, p ∈ next.seen) {packets : List Bytes}
    (heard : ∀ b, rx.beacon = some b → next.beacon = some b ∧ ∀ p ∈ packets, p ∈ next.seen)
    (full : ∀ p ∈ tx.packets, p ∈ packets) : ∀ p ∈ tx.packets, p ∈ base := by
  cases known : rx.beacon with
  | none =>
      rw [(gathering.sane.unheard known).2.1] at enough
      exact absurd enough (by simpa using code.not_empty)
  | some b =>
      obtain ⟨known', all⟩ := heard b known
      obtain ⟨fed, handed, limited⟩ := after.fed b known'
      have sufficient : code.Suffices {p | p ∈ fed} := by
        by_contra lacking
        rw [handed.lacking lacking] at lacking
        exact lacking (code.mono seen enough)
      exact fun p member => limited sufficient p (all p (full p member))

theorem Gathering.keyed {base : Set Bytes} {rx : Receiver crates} (gathering : Gathering code tx base rx)
    (opened : openObject crates key tx.beacon object = .ok plaintext ∨
      ∃ error, openObject crates key tx.beacon object = .error error) :
    ∃ later, Keyed tx key object plaintext crates later (some key) ∧
      Gathering code tx later (rx.setKey key) ∧
      (openObject crates key tx.beacon object = .ok plaintext → later = {p | p ∈ rx.seen}) := by
  rcases opened with opens | ⟨error, failed⟩
  · exact ⟨_, .inl ⟨rfl, opens⟩, gathering.setKey key fun _ member => member, fun _ => rfl⟩
  · refine ⟨Set.univ, .inr ⟨rfl, ?_⟩, gathering.setKey key fun _ _ => trivial, fun opens => ?_⟩
    · rintro k ⟨rfl⟩
      exact ⟨error, failed⟩
    · rw [failed] at opens
      simp at opens

theorem key_moment (genuine : PacketPool tx.packets)
    (reassembles : Reassembles crates code tx.beacon.oti tx.packets object) (sound : Sound crates tx)
    (opened : openObject crates key tx.beacon object = .ok plaintext ∨
      ∃ error, openObject crates key tx.beacon object = .error error) {early late cycle : List Frame}
    (drawnEarly : ∀ frame ∈ early, tx.Genuine crates frame)
    (drawnLate : ∀ frame ∈ late, tx.Genuine crates frame)
    (drawnCycle : ∀ frame ∈ cycle, tx.Genuine crates frame)
    (full : ∀ p ∈ tx.packets, ∃ frame ∈ cycle, p ∈ carried crates frame.bytes) :
    ∃ front atKey middle before back final,
      Machine.Run respond (new crates) front atKey ∧ front.map Prod.fst = sent early ∧
      Machine.Run respond (atKey.setKey key) middle before ∧ middle.map Prod.fst = sent late ∧
      Machine.Run respond before back final ∧ back.map Prod.fst = sent cycle ∧
      (code.Suffices {p | p ∈ before.seen} →
        (some (.ok (.done plaintext)) ∈ (front ++ middle ++ back).map Prod.snd ↔
          openObject crates key tx.beacon object = .ok plaintext ∧
            ∃ p ∈ tx.packets, p ∉ atKey.seen)) := by
  have keyless : Keyed tx key object plaintext crates Set.univ none := .inr ⟨rfl, by simp⟩
  obtain ⟨front, atKey, run, shape, gathers⟩ := gather_run genuine reassembles sound
    (gathering_new : Gathering code tx Set.univ (new crates)) keyless early drawnEarly
  cases gathers with
  | delivered _ _ impossible _ _ => simp [new] at impossible
  | gathered quiet gathering _ _ _ =>
      obtain ⟨later, keyed, gathering, limit⟩ := gathering.keyed opened
      obtain ⟨middle, before, run', shape', gathers⟩ :=
        gather_run genuine reassembles sound gathering keyed late drawnLate
      cases gathers with
      | delivered told done _ opens unseen =>
          obtain ⟨back, run'', shape''⟩ := ignored_run done cycle
          refine ⟨_, _, _, _, _, _, run, shape, run', shape', run'', shape'', fun _ =>
            ⟨fun _ => ⟨opens, unseen⟩, fun _ => ?_⟩⟩
          simp only [List.map_append, List.mem_append]
          exact .inl (.inr told)
      | gathered quiet' gathering' key' seen _ =>
          obtain ⟨back, final, run'', shape'', gathers⟩ :=
            gather_run genuine reassembles sound gathering' (by rwa [key']) cycle drawnCycle
          refine ⟨_, _, _, _, _, _, run, shape, run', shape', run'', shape'', fun enough => ?_⟩
          simp only [List.map_append, List.mem_append]
          cases gathers with
          | delivered told _ _ opens unseen =>
              obtain ⟨p, member, absent⟩ := unseen
              exact ⟨fun _ => ⟨opens, p, member, fun before => absent (seen p before)⟩,
                fun _ => .inr told⟩
          | gathered quiet'' gathering'' _ seen' heard =>
              have all := gathering'.all_seen enough gathering'' seen' heard fun p member =>
                List.mem_flatMap.mpr (full p member)
              constructor
              · rintro ((told | told) | told)
                · exact absurd told (quiet plaintext)
                · exact absurd told (quiet' plaintext)
                · exact absurd told (quiet'' plaintext)
              · rintro ⟨opens, p, member, absent⟩
                rw [limit opens] at all
                exact absurd (all p member) absent

end Transfer

def Openable (crates : Crates) (plaintext : Bytes) : Prop :=
  plaintext.length < 2 ^ 32 ∧
    ((maybeCompress crates plaintext).2 = true → plaintext.length ≤ inflateLimit)

theorem openObject_refused (key : Crypto.SessionKey) (nonce : Octets 24) (cfg : TransmitConfig)
    {plaintext : Bytes} (refused : ¬Openable crates plaintext) (undoes : DecryptUndoesEncrypt crates)
    (returns : InflateReturns crates) (refuses : InflateRefuses crates) :
    ∃ error, openObject crates key (Transmitter.new crates key nonce cfg plaintext).beacon
      (Transmitter.ciphertext crates key nonce cfg plaintext) = .error error := by
  rw [openObject_own key nonce cfg plaintext undoes]
  by_cases inflatable : (maybeCompress crates plaintext).2 = true → plaintext.length ≤ inflateLimit
  · have long : ¬plaintext.length < 2 ^ 32 := fun short => refused ⟨short, inflatable⟩
    have other : plaintext.length ≠ plaintext.length % 2 ^ 32 := by omega
    rw [maybeDecompress_returns returns inflatable]
    exact ⟨_, if_pos other⟩
  · simp only [not_forall, Nat.not_le] at inflatable
    obtain ⟨compressed, beyond⟩ := inflatable
    rcases maybeCompress_cases crates plaintext with raw | deflated
    · simp [raw] at compressed
    · simp [Except.bind, deflated, maybeDecompress, refuses plaintext inflateLimit beyond]

theorem openObject_new_iff (key : Crypto.SessionKey) (nonce : Octets 24) (cfg : TransmitConfig)
    (plaintext : Bytes) (undoes : DecryptUndoesEncrypt crates) (returns : InflateReturns crates)
    (refuses : InflateRefuses crates) :
    openObject crates key (Transmitter.new crates key nonce cfg plaintext).beacon
      (Transmitter.ciphertext crates key nonce cfg plaintext) = .ok plaintext ↔
        Openable crates plaintext := by
  constructor
  · intro opens
    by_contra refused
    obtain ⟨error, failed⟩ := openObject_refused key nonce cfg refused undoes returns refuses
    rw [failed] at opens
    simp at opens
  · rintro ⟨short, inflatable⟩
    exact openObject_new key nonce cfg short inflatable undoes returns

/-- The key is set once, between frames of a transmitter, and every packet of the pool is sent once
more behind a point at which the packets absorbed suffice: the plaintext is delivered exactly when it
is one that can be opened and some packet was not absorbed yet when the key came. -/
theorem key_moment_iff (code : Fountain.Code Bytes) (key : Crypto.SessionKey) (nonce : Octets 24)
    (cfg : TransmitConfig) (plaintext : Bytes) (undoes : DecryptUndoesEncrypt crates)
    (returns : InflateReturns crates) (refuses : InflateRefuses crates)
    (genuine : PacketPool (Transmitter.encoded crates key nonce cfg plaintext).packets)
    (reassembles : Reassembles crates code (Transmitter.encoded crates key nonce cfg plaintext).oti
      (Transmitter.encoded crates key nonce cfg plaintext).packets
      (Transmitter.ciphertext crates key nonce cfg plaintext))
    (ops : List Transmitter.Op) (early late cycle : List Frame)
    (drawn : ∀ frame ∈ early ++ late ++ cycle,
      frame ∈ Transmitter.emitted crates (Transmitter.new crates key nonce cfg plaintext) ops)
    (full : ∀ p ∈ (Transmitter.encoded crates key nonce cfg plaintext).packets,
      ∃ frame ∈ cycle, p ∈ carried crates frame.bytes) :
    ∃ front atKey middle before back final,
      Machine.Run respond (new crates) front atKey ∧ front.map Prod.fst = sent early ∧
      Machine.Run respond (atKey.setKey key) middle before ∧ middle.map Prod.fst = sent late ∧
      Machine.Run respond before back final ∧ back.map Prod.fst = sent cycle ∧
      (code.Suffices {p | p ∈ before.seen} →
        (some (.ok (.done plaintext)) ∈ (front ++ middle ++ back).map Prod.snd ↔
          Openable crates plaintext ∧
            ∃ p ∈ (Transmitter.encoded crates key nonce cfg plaintext).packets, p ∉ atKey.seen)) := by
  have allowed : ∀ frame ∈ early ++ late ++ cycle,
      (Transmitter.new crates key nonce cfg plaintext).Genuine crates frame :=
    fun frame member => Transmitter.new_emits frame (drawn frame member)
  obtain ⟨allowed, allowedCycle⟩ := List.forall_mem_append.mp allowed
  obtain ⟨allowedEarly, allowedLate⟩ := List.forall_mem_append.mp allowed
  have opens := openObject_new_iff key nonce cfg plaintext undoes returns refuses
  have opened : openObject crates key (Transmitter.new crates key nonce cfg plaintext).beacon
        (Transmitter.ciphertext crates key nonce cfg plaintext) = .ok plaintext ∨
      ∃ error, openObject crates key (Transmitter.new crates key nonce cfg plaintext).beacon
        (Transmitter.ciphertext crates key nonce cfg plaintext) = .error error := by
    by_cases openable : Openable crates plaintext
    · exact .inl (opens.mpr openable)
    · exact .inr (openObject_refused key nonce cfg openable undoes returns refuses)
  rw [← opens]
  exact key_moment genuine reassembles (sound_new genuine.sized) opened allowedEarly allowedLate allowedCycle
    full

/-! A transfer whose first frames suffice before the key is there. The seal is one byte of the key. -/

abbrev terseCrates : Crates :=
  { Crates.sample with
    xchachaEncrypt := fun key _ _ msg => key.bytes.take 1 ++ msg
    xchachaDecrypt := fun key _ _ ct =>
      if key.bytes.take 1 <+: ct then some (ct.drop (key.bytes.take 1).length) else none }

def terseObject : Encoded :=
  Transmitter.encoded terseCrates sampleKey sampleNonce sampleConfig samplePlaintext

def terseFrames : List Frame :=
  Transmitter.emitted terseCrates
    (Transmitter.new terseCrates sampleKey sampleNonce sampleConfig samplePlaintext)
    [.nextFrame, .nextFrameAt 40, .nextFrameAt 150]

theorem undoes_terse : DecryptUndoesEncrypt terseCrates := by
  intro key nonce aad msg
  simp

theorem returns_terse : InflateReturns terseCrates := by
  intro plain limit bound
  simp [Crates.sample, bound]

theorem refuses_terse : InflateRefuses terseCrates := by
  intro plain limit beyond
  simp [Crates.sample, beyond]

theorem genuine_terse : PacketPool terseObject.packets :=
  ⟨⟨8, by decide, by decide, by decide +kernel⟩, by decide +kernel⟩

theorem reassembles_terse : Reassembles terseCrates anyPacket terseObject.oti terseObject.packets
    (Transmitter.ciphertext terseCrates sampleKey sampleNonce sampleConfig samplePlaintext) := by
  refine ⟨⟨(), rfl⟩, fun start fed packet _ _ inside => ?_⟩
  refine ⟨(), (), some (packet.drop 4), feed_sample fed, rfl, fun _ => ?_, fun empty => ?_⟩
  · obtain ⟨number, -, rfl⟩ := List.mem_map.mp (inside packet (by simp))
    rfl
  · exact absurd ⟨packet, by simp⟩ empty

set_option maxRecDepth 100000 in
theorem full_terse :
    ∀ p ∈ terseObject.packets, ∃ frame ∈ terseFrames.drop 2, p ∈ carried terseCrates frame.bytes := by
  decide +kernel

set_option maxRecDepth 100000 in
theorem key_moment_between : ∃ front atKey middle before back final,
    Machine.Run respond (new terseCrates) front atKey ∧
      front.map Prod.fst = sent (terseFrames.take 2) ∧
      Machine.Run respond (atKey.setKey sampleKey) middle before ∧ middle.map Prod.fst = sent [] ∧
      Machine.Run respond before back final ∧ back.map Prod.fst = sent (terseFrames.drop 2) ∧
      anyPacket.Suffices {p | p ∈ before.seen} ∧
      some (.ok (.done samplePlaintext)) ∈ (front ++ middle ++ back).map Prod.snd := by
  have computed : (Machine.execute respond (new terseCrates) (sent (terseFrames.take 2))).map
      (fun result => result.2.seen) = some (terseObject.packets.take 2) := by
    decide +kernel
  obtain ⟨front, atKey, middle, before, back, final, run, shape, run', shape', run'', shape'', delivers⟩ :=
    key_moment_iff anyPacket sampleKey sampleNonce sampleConfig samplePlaintext undoes_terse
      returns_terse refuses_terse genuine_terse reassembles_terse
      [.nextFrame, .nextFrameAt 40, .nextFrameAt 150] (terseFrames.take 2) [] (terseFrames.drop 2)
      (fun frame member => by rwa [List.append_nil, List.take_append_drop] at member) full_terse
  rw [← shape, run.executes] at computed
  have seen : atKey.seen = terseObject.packets.take 2 := Option.some_inj.mp computed
  obtain rfl : middle = [] := List.map_eq_nil_iff.mp shape'
  obtain rfl : atKey.setKey sampleKey = before := by
    cases run'
    rfl
  have enough : anyPacket.Suffices {p | p ∈ atKey.seen} := by
    rw [seen]
    exact ⟨_, List.mem_cons_self⟩
  refine ⟨front, atKey, [], _, back, final, run, shape, run', shape', run'', shape'', enough,
    (delivers enough).mpr ⟨⟨by decide, fun _ => by decide⟩, ?_⟩⟩
  rw [seen]
  decide +kernel

set_option maxRecDepth 100000 in
/-- What is reassembled before the key is there is not kept, and the packets of one further cycle are
all duplicates. -/
theorem late_key_strands : ∃ front atKey back final,
    Machine.Run respond (new terseCrates) front atKey ∧ front.map Prod.fst = sent terseFrames ∧
      Machine.Run respond (atKey.setKey sampleKey) back final ∧
      back.map Prod.fst = sent (terseFrames.drop 2) ∧
      Reassembles terseCrates anyPacket terseObject.oti terseObject.packets
        (Transmitter.ciphertext terseCrates sampleKey sampleNonce sampleConfig samplePlaintext) ∧
      (∀ p ∈ terseObject.packets,
        ∃ frame ∈ terseFrames.drop 2, p ∈ carried terseCrates frame.bytes) ∧
      anyPacket.Suffices {p | p ∈ (atKey.setKey sampleKey).seen} ∧
      (front ++ back).map Prod.snd = [some (.ok .beaconAcquired), some (.ok (.progress 2 1)),
        some (.ok (.progress 16 1)), some (.ok (.progress 16 1))] := by
  have early : (Machine.execute respond (new terseCrates) (sent terseFrames)).map
      (fun result => (result.2.seen.head?, result.1)) =
      some (terseObject.packets.head?, [some (.ok .beaconAcquired), some (.ok (.progress 2 1)),
        some (.ok (.progress 16 1))]) := by
    decide +kernel
  have again : (Machine.execute respond (new terseCrates) (sent terseFrames)).bind (fun result =>
      (Machine.execute respond (result.2.setKey sampleKey) (sent (terseFrames.drop 2))).map
        Prod.fst) = some [some (.ok (.progress 16 1))] := by
    decide +kernel
  obtain ⟨⟨answers, atKey⟩, executed, same⟩ := Option.map_eq_some_iff.mp early
  obtain ⟨seen, rfl⟩ : atKey.seen.head? = terseObject.packets.head? ∧ answers = _ := Prod.mk.inj same
  rw [executed] at again
  obtain ⟨⟨answers, final⟩, executed', told⟩ := Option.map_eq_some_iff.mp again
  obtain rfl : answers = _ := told
  obtain ⟨run, sized⟩ := Machine.execute_run executed
  obtain ⟨run', sized'⟩ := Machine.execute_run executed'
  refine ⟨_, atKey, _, final, run, List.map_fst_zip (Nat.le_of_eq sized), run',
    List.map_fst_zip (Nat.le_of_eq sized'), reassembles_terse, full_terse, ?_, ?_⟩
  · exact ⟨_, List.mem_of_mem_head? seen⟩
  · rw [List.map_append, List.map_snd_zip (Nat.le_of_eq sized.symm),
      List.map_snd_zip (Nat.le_of_eq sized'.symm)]
    rfl

end Rabaska.Pipeline
