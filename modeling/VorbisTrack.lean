import VorbisTrack.Bytes
import VorbisTrack.Catalogue
import VorbisTrack.ChannelLayout
import VorbisTrack.Command.Arguments
import VorbisTrack.Command.Bitrate
import VorbisTrack.Command.Encode
import VorbisTrack.Command.Fault
import VorbisTrack.Command.HeaderReport
import VorbisTrack.Command.Json
import VorbisTrack.Command.Option
import VorbisTrack.Command.Request
import VorbisTrack.Command.Run
import VorbisTrack.Command.Tuning
import VorbisTrack.Digest
import VorbisTrack.Encoder
import VorbisTrack.Encoder.Staging
import VorbisTrack.EncodingOptions
import VorbisTrack.Failure
import VorbisTrack.Frame
import VorbisTrack.Frame.Singles
import VorbisTrack.HeaderPackets
import VorbisTrack.Library
import VorbisTrack.Library.Scripted
import VorbisTrack.Library.Trace
import VorbisTrack.Main
import VorbisTrack.Matroska.Block
import VorbisTrack.Matroska.Cluster
import VorbisTrack.Matroska.Element
import VorbisTrack.Matroska.Muxer
import VorbisTrack.Matroska.Registry
import VorbisTrack.Matroska.Track
import VorbisTrack.Numeric.Binary
import VorbisTrack.Numeric.Numeral
import VorbisTrack.Numeric.Power
import VorbisTrack.Numeric.Shortest
import VorbisTrack.Packet
import VorbisTrack.Proofs.Bytes
import VorbisTrack.Proofs.Command.Bitrate
import VorbisTrack.Proofs.Command.Comments
import VorbisTrack.Proofs.Command.Encode
import VorbisTrack.Proofs.Command.Exhaustion
import VorbisTrack.Proofs.Command.Job
import VorbisTrack.Proofs.Command.Outputs
import VorbisTrack.Proofs.Command.Written
import VorbisTrack.Proofs.Encoder.Anchor
import VorbisTrack.Proofs.Encoder.Backpressure
import VorbisTrack.Proofs.Encoder.Budget
import VorbisTrack.Proofs.Encoder.Buffers
import VorbisTrack.Proofs.Encoder.Channels
import VorbisTrack.Proofs.Encoder.Conservation
import VorbisTrack.Proofs.Encoder.Contiguity
import VorbisTrack.Proofs.Encoder.Exhaustion
import VorbisTrack.Proofs.Encoder.Opening
import VorbisTrack.Proofs.Encoder.Protocol
import VorbisTrack.Proofs.Encoder.Release
import VorbisTrack.Proofs.Encoder.Run
import VorbisTrack.Proofs.Encoder.Samples
import VorbisTrack.Proofs.Encoder.Schedule
import VorbisTrack.Proofs.Encoder.Sending
import VorbisTrack.Proofs.Encoder.Success
import VorbisTrack.Proofs.Encoder.Tags
import VorbisTrack.Proofs.Encoder.Timing
import VorbisTrack.Proofs.Encoder.Tracking
import VorbisTrack.Proofs.Encoder.ZeroCounts
import VorbisTrack.Proofs.EncodingOptions
import VorbisTrack.Proofs.Frame.Interleaving
import VorbisTrack.Proofs.Frame.Layout
import VorbisTrack.Proofs.Frame.Singles
import VorbisTrack.Proofs.HeaderPackets
import VorbisTrack.Proofs.Library.Codec
import VorbisTrack.Proofs.Matroska.Block
import VorbisTrack.Proofs.Matroska.CallOrder
import VorbisTrack.Proofs.Matroska.Cluster
import VorbisTrack.Proofs.Matroska.Confinement
import VorbisTrack.Proofs.Matroska.Cues
import VorbisTrack.Proofs.Matroska.Element
import VorbisTrack.Proofs.Matroska.Layout
import VorbisTrack.Proofs.Matroska.Lifecycle
import VorbisTrack.Proofs.Matroska.Muxer
import VorbisTrack.Proofs.Matroska.Numbering
import VorbisTrack.Proofs.Matroska.Partition
import VorbisTrack.Proofs.Matroska.Registry
import VorbisTrack.Proofs.Matroska.Unambiguity
import VorbisTrack.Proofs.Numeric.Rounding
import VorbisTrack.Proofs.Rational
import VorbisTrack.Proofs.SampleTime
import VorbisTrack.Proofs.Session.Blocks
import VorbisTrack.Proofs.Session.Calls
import VorbisTrack.Proofs.Session.Ending
import VorbisTrack.Proofs.Session.Exhaustion
import VorbisTrack.Proofs.Session.Opening
import VorbisTrack.Proofs.Session.Parts
import VorbisTrack.Proofs.Session.Pausing
import VorbisTrack.Proofs.Session.Protocol
import VorbisTrack.Proofs.Session.Received
import VorbisTrack.Proofs.Session.Released
import VorbisTrack.Proofs.Session.Success
import VorbisTrack.Proofs.Settings
import VorbisTrack.Proofs.Storage.FileTree
import VorbisTrack.Proofs.Storage.OutputFile
import VorbisTrack.Proofs.Storage.Path
import VorbisTrack.Proofs.Text
import VorbisTrack.Proofs.Timestamp
import VorbisTrack.Proofs.Wav.Chunks
import VorbisTrack.Proofs.Wav.Demuxer
import VorbisTrack.Proofs.Wav.Header
import VorbisTrack.Proofs.Wav.Position
import VorbisTrack.Proofs.Wav.Reading
import VorbisTrack.Proofs.Wav.Reopening
import VorbisTrack.Proofs.Wav.Safety
import VorbisTrack.Proofs.Wav.Seeking
import VorbisTrack.Rational
import VorbisTrack.SampleFormat
import VorbisTrack.Session
import VorbisTrack.Settings
import VorbisTrack.Storage.FileFault
import VorbisTrack.Storage.FileTree
import VorbisTrack.Storage.OutputFile
import VorbisTrack.Storage.Path
import VorbisTrack.Storage.Reader
import VorbisTrack.Stream
import VorbisTrack.Text
import VorbisTrack.Timestamp
import VorbisTrack.Wav.Demuxer
import VorbisTrack.Wav.Format
import VorbisTrack.Wav.FormatTag
import VorbisTrack.Wav.Header
