import JvmFrames.Main
import JvmFrames.Proofs.CompressedFrame.ByteReader
import JvmFrames.Proofs.CompressedFrame.Resolution
import JvmFrames.Proofs.ConstantPool.Indexed
import JvmFrames.Proofs.Decompression
import JvmFrames.Proofs.Descriptor.Acceptance
import JvmFrames.Proofs.Descriptor.Rendering
import JvmFrames.Proofs.Frame.Comparison
import JvmFrames.Proofs.Frame.Cut
import JvmFrames.Proofs.Frame.Entry
import JvmFrames.Proofs.Frame.Initialization
import JvmFrames.Proofs.Frame.Operation
import JvmFrames.Proofs.Frame.Storing
import JvmFrames.Proofs.Hierarchy.Declared
import JvmFrames.Proofs.Hierarchy.Order
import JvmFrames.Proofs.Listing.RoundTrip
import JvmFrames.Proofs.Locals.Layout
import JvmFrames.Proofs.MethodFrames.Loading
import JvmFrames.Proofs.MethodFrames.Reordering
import JvmFrames.Proofs.Shortest
import JvmFrames.Proofs.ModifiedUtf8
import JvmFrames.Proofs.ConstantPool.ByteReader
import JvmFrames.Proofs.Frame.Merge
import JvmFrames.Proofs.Listing.Acceptance
import JvmFrames.Proofs.Listing.Validation
