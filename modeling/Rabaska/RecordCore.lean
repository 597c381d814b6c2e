import Rabaska.PipelineCore

/-! Every call on a receiver, and decoders that write down what they are handed. -/

namespace Rabaska

namespace Pipeline

variable {crates : Crates}

def feed (crates : Crates) (dec : crates.Decoder) (fed : List Bytes) : Option crates.Decoder :=
  fed.foldlM (fun dec p => (crates.decode dec p).map Prod.fst) dec

@[simp] theorem feed_nil (dec : crates.Decoder) : feed crates dec [] = some dec := rfl

theorem feed_cons (dec : crates.Decoder) (p : Bytes) (fed : List Bytes) : feed crates dec (p :: fed) =
    (crates.decode dec p).bind fun answer => feed crates answer.1 fed := by
  simp only [feed, List.foldlM_cons]
  cases crates.decode dec p <;> rfl

theorem feed_append (dec : crates.Decoder) (front back : List Bytes) :
    feed crates dec (front ++ back) = (feed crates dec front).bind fun dec => feed crates dec back :=
  List.foldlM_append

theorem feed_concat (dec : crates.Decoder) (fed : List Bytes) (p : Bytes) :
    feed crates dec (fed ++ [p]) =
      (feed crates dec fed).bind fun dec => (crates.decode dec p).map Prod.fst := by
  simp [feed_append, feed_cons, Option.map_eq_bind]

/-- A decoder beside what it was made with, what it was handed and what it gave back; there is no
decoder any more once it panicked. -/
@[ext] structure Recorder (crates : Crates) where
  oti : Octets 12
  packets : List Bytes
  objects : List Bytes
  inner : Option crates.Decoder
  replayed : inner = (crates.newDecoder oti).bind fun start => feed crates start packets

namespace Recorder

def new (crates : Crates) (oti : Octets 12) : Recorder crates where
  oti := oti
  packets := []
  objects := []
  inner := crates.newDecoder oti
  replayed := by simp

def decode (rec : Recorder crates) (packet : Bytes) : Recorder crates × Option Bytes :=
  let answer := rec.inner.bind fun dec => crates.decode dec packet
  let out := answer.bind Prod.snd
  ({ oti := rec.oti
     packets := rec.packets ++ [packet]
     objects := rec.objects ++ out.toList
     inner := answer.map Prod.fst
     replayed := by
       simp only [answer, rec.replayed, Option.map_bind, Option.bind_assoc, feed_concat,
         Function.comp_def] }, out)

end Recorder

end Pipeline

open Pipeline in
/-- The same crates with a decoder that records, and that goes on recording after a panic. -/
abbrev Crates.recorded (crates : Crates) : Crates :=
  { crates with
    Decoder := Recorder crates
    newDecoder := fun oti => some (Recorder.new crates oti)
    decode := fun rec packet => some (rec.decode packet) }

namespace Pipeline.Receiver

open Wire

variable {crates : Crates}

inductive Input where
  | ingest (frame : Bytes)
  | restore (session : Octets 4) (packets : List Bytes)
  | setKey (key : Crypto.SessionKey)
  deriving DecidableEq

def respond (rx : Receiver crates) : Input → Option (Option (Except Error Ingest) × Receiver crates)
  | .ingest frame => (rx.ingest frame).map fun (result, next) => (some result, next)
  | .restore session packets => some (none, rx.restore session packets)
  | .setKey key => some (none, rx.setKey key)

/-- The same receiver around another decoder. -/
def carry {other : Crates} (rx : Receiver other) (decoder : Option crates.Decoder) : Receiver crates where
  beacon := rx.beacon
  key := rx.key
  decoder := decoder
  pending := rx.pending
  seen := rx.seen
  ids := rx.ids
  received := rx.received
  needed := rx.needed
  done := rx.done

/-- The receiver without the record, unless its decoder panicked. -/
def forget (rx : Receiver crates.recorded) : Option (Receiver crates) :=
  match rx.decoder with
  | none => some (rx.carry none)
  | some rec => rec.inner.map fun dec => rx.carry (some dec)

end Pipeline.Receiver

end Rabaska
