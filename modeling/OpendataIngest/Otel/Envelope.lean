import OpendataIngest.Runtime.Types
import Mathlib.Data.List.Forall2

/-!
# The metadata envelope

`envelope.rs`: each entry's metadata starts with four bytes, the version, the signal, the
encoding and a reserved byte.  An entry whose envelope is not the configured one stops the
decoder.
-/

set_option autoImplicit false

namespace OpendataIngest.Otel

open MachineInt OpendataIngest.Runtime

def envelopeLen : Nat := 4

inductive SignalType where
  | metrics
  | logs
  | traces
  deriving DecidableEq, Repr

namespace SignalType

def fromByte (byte : UInt8) : Option SignalType :=
  match byte.toNat with
  | 1 => some .metrics
  | 2 => some .logs
  | 3 => some .traces
  | _ => none

def name : SignalType → String
  | .metrics => "metrics"
  | .logs => "logs"
  | .traces => "traces"

end SignalType

inductive PayloadEncoding where
  | otlpProtobuf
  deriving DecidableEq, Repr

namespace PayloadEncoding

def fromByte (byte : UInt8) : Option PayloadEncoding :=
  match byte.toNat with
  | 1 => some .otlpProtobuf
  | _ => none

def name : PayloadEncoding → String
  | .otlpProtobuf => "otlp_protobuf"

end PayloadEncoding

structure MetadataEnvelope where
  version : UInt8
  signalType : SignalType
  encoding : PayloadEncoding
  reserved : UInt8
  deriving DecidableEq

structure ConfiguredEnvelope where
  version : UInt8
  signalType : SignalType
  encoding : PayloadEncoding
  deriving DecidableEq

def ConfiguredEnvelope.matches (configured : ConfiguredEnvelope) (env : MetadataEnvelope) : Bool :=
  configured.version == env.version && configured.signalType == env.signalType &&
    configured.encoding == env.encoding

inductive EnvelopeError where
  | tooShort (entryIndex : U32) (len min : Nat)
  | unsupportedVersion (entryIndex : U32) (version : UInt8)
  | unsupportedSignal (entryIndex : U32) (byte : UInt8)
  | unsupportedEncoding (entryIndex : U32) (byte : UInt8)
  | mismatch (entryIndex : U32) (env : MetadataEnvelope) (expected : ConfiguredEnvelope)
  deriving DecidableEq

def EnvelopeError.text : EnvelopeError → String
  | .tooShort entryIndex len min =>
      s!"entry {entryIndex.val}: envelope is {len} bytes; expected at least {min}"
  | .unsupportedVersion entryIndex version =>
      s!"entry {entryIndex.val}: unsupported version {version.toNat}"
  | .unsupportedSignal entryIndex byte =>
      s!"entry {entryIndex.val}: unsupported signal_type byte {byte.toNat}"
  | .unsupportedEncoding entryIndex byte =>
      s!"entry {entryIndex.val}: unsupported encoding byte {byte.toNat}"
  | .mismatch entryIndex env expected =>
      s!"entry {entryIndex.val}: envelope (v{env.version.toNat}, signal={env.signalType.name}, " ++
        s!"encoding={env.encoding.name}) does not match configured " ++
        s!"(v{expected.version.toNat}, signal={expected.signalType.name}, " ++
        s!"encoding={expected.encoding.name})"

/-- `decode_one` of `envelope.rs`. -/
def decodeEnvelope (entryIndex : U32) (payload : Bytes) : Except EnvelopeError MetadataEnvelope :=
  match payload with
  | version :: signal :: encoding :: reserved :: _ =>
      if version ≠ 1 then .error (.unsupportedVersion entryIndex version)
      else match SignalType.fromByte signal with
        | none => .error (.unsupportedSignal entryIndex signal)
        | some signalType =>
            match PayloadEncoding.fromByte encoding with
            | none => .error (.unsupportedEncoding entryIndex encoding)
            | some payloadEncoding => .ok ⟨version, signalType, payloadEncoding, reserved⟩
  | _ => .error (.tooShort entryIndex payload.length envelopeLen)

def decodeEnvelopes : List SourceEntry → Except EnvelopeError (List MetadataEnvelope)
  | [] => .ok []
  | entry :: rest =>
      match decodeEnvelope entry.entryIndex entry.rawMetadata with
      | .error e => .error e
      | .ok env => match decodeEnvelopes rest with
          | .error e => .error e
          | .ok envelopes => .ok (env :: envelopes)

/-- The loop of `validate_consistent` from position `i` on. -/
def validateFrom (configured : ConfiguredEnvelope) (i : Nat) :
    List MetadataEnvelope → Except EnvelopeError Unit
  | [] => .ok ()
  | env :: rest =>
      if configured.matches env then validateFrom configured (i + 1) rest
      else .error (.mismatch (Fin.ofNat (2 ^ 32) i) env configured)

def validateConsistent (envelopes : List MetadataEnvelope) (configured : ConfiguredEnvelope) :
    Except EnvelopeError Unit :=
  validateFrom configured 0 envelopes

/-! ## When every entry passes -/

/-- The entry index only names the entry in the error. -/
theorem decodeEnvelope_ok_index (i j : U32) (payload : Bytes) (env : MetadataEnvelope)
    (decoded : decodeEnvelope i payload = .ok env) : decodeEnvelope j payload = .ok env := by
  unfold decodeEnvelope at decoded ⊢
  split at decoded
  · split at decoded
    · cases decoded
    · rename_i known
      rw [if_neg known]
      split at decoded
      · cases decoded
      · split at decoded
        · cases decoded
        · exact decoded
  · cases decoded

theorem decodeEnvelopes_ok_iff (entries : List SourceEntry) (envelopes : List MetadataEnvelope) :
    decodeEnvelopes entries = .ok envelopes ↔
      List.Forall₂ (fun entry env => decodeEnvelope entry.entryIndex entry.rawMetadata = .ok env)
        entries envelopes := by
  induction entries generalizing envelopes with
  | nil => simp [decodeEnvelopes, eq_comm]
  | cons entry rest ih =>
      simp only [decodeEnvelopes]
      constructor
      · intro decoded
        split at decoded
        · cases decoded
        · rename_i env isEnv
          split at decoded
          · cases decoded
          · rename_i later areLater
            cases decoded
            exact List.Forall₂.cons isEnv ((ih later).mp areLater)
      · intro paired
        cases paired with
        | cons isEnv areLater => rw [isEnv, (ih _).mpr areLater]

theorem validateFrom_ok_iff (configured : ConfiguredEnvelope) (i : Nat)
    (envelopes : List MetadataEnvelope) :
    validateFrom configured i envelopes = .ok () ↔
      ∀ env ∈ envelopes, configured.matches env = true := by
  induction envelopes generalizing i with
  | nil => simp [validateFrom]
  | cons env rest ih =>
      simp only [validateFrom, List.forall_mem_cons]
      by_cases fits : configured.matches env = true
      · rw [if_pos fits, ih]
        simp [fits]
      · rw [if_neg fits]
        simp [fits]

end OpendataIngest.Otel
