import BinaryRecord.Direct
import BinaryRecord.Layout.Slots
import BinaryRecord.Proofs.Bytes.Overwrite
import BinaryRecord.Proofs.Channel.Conservation
import BinaryRecord.Proofs.Decoder.Counters
import BinaryRecord.Proofs.Decoder.Progress
import BinaryRecord.Proofs.Field.Floats
import BinaryRecord.Proofs.Field.Integers
import BinaryRecord.Proofs.Format.Grammar
import BinaryRecord.Proofs.Format.Rejection
import BinaryRecord.Proofs.Layout.Canonical
import BinaryRecord.Proofs.Layout.Compilation
import BinaryRecord.Proofs.Layout.Orders
import BinaryRecord.Proofs.Layout.Regrouping
import BinaryRecord.Proofs.Packing.Batches
import BinaryRecord.Proofs.Packing.Cursor
import BinaryRecord.Proofs.Packing.Spans
import BinaryRecord.Proofs.RoundTrip.Bytes
import BinaryRecord.Proofs.RoundTrip.Targets
import BinaryRecord.Proofs.RoundTrip.Values
import BinaryRecord.Proofs.Sample.RoundTrip
import BinaryRecord.Proofs.Stream.Backpressure
import BinaryRecord.Proofs.Stream.Liveness
import BinaryRecord.Proofs.Stream.Outcome
import BinaryRecord.Proofs.Stream.Refinement
import BinaryRecord.Proofs.Transfer.RoundTrip
import BinaryRecord.Proofs.Unpacking.Spans
import BinaryRecord.Sample
import BinaryRecord.Transfer.Sink
import BinaryRecord.Transfer.Source
import BinaryRecord.Value.Text
