import DmrBridge.Lib.Endian
import DmrBridge.Lib.Records
import DmrBridge.Lib.Recent
import DmrBridge.Lib.Lookahead
import DmrBridge.Lib.SetEdits
import DmrBridge.Lib.Run
import DmrBridge.Lib.Lanes
import DmrBridge.Lib.PackedTable
import DmrBridge.Lib.MsbBits
import DmrBridge.Lib.ReedSolomon
import DmrBridge.Lib.BinaryCode
import DmrBridge.Lib.CyclicCode
import DmrBridge.Lib.Blocks
import DmrBridge.Lib.Counters
import DmrBridge.Lib.FixedText
import DmrBridge.Lib.GainReduction
import DmrBridge.Lib.LinearCode
import DmrBridge.Lib.Riff
import DmrBridge.Lib.Untagged
import DmrBridge.Types
import DmrBridge.Dmrd
import DmrBridge.DmrdCodec
import DmrBridge.Frame
import DmrBridge.Fec
import DmrBridge.Rs
import DmrBridge.Gf256
import DmrBridge.RsDecode
import DmrBridge.Bptc
import DmrBridge.BptcDecode
import DmrBridge.HammingErrors
import DmrBridge.BptcCorrect
import DmrBridge.RsCorrect
import DmrBridge.EmbeddedLc
import DmrBridge.BurstFields
import DmrBridge.VoiceChannel
import DmrBridge.VoiceChannelDecode
import DmrBridge.VqFields
import DmrBridge.NeuralDecoder
import DmrBridge.NeuralEncoder
import DmrBridge.EmbeddedLcDecode
import DmrBridge.EmbeddedLcCorrect
import DmrBridge.Subscribers
import DmrBridge.TalkerAlias
import DmrBridge.Ptt
import DmrBridge.Tx
import DmrBridge.Rx
import DmrBridge.NetworkReset
import DmrBridge.RxBracket
import DmrBridge.HalfDuplex
import DmrBridge.TxFormat
import DmrBridge.LcDelivery
import DmrBridge.LossAccounting
import DmrBridge.CallTally
import DmrBridge.FrameAccounting
import DmrBridge.EncoderLog
import DmrBridge.AudioConservation
import DmrBridge.MetadataLatch
import DmrBridge.Stats
import DmrBridge.StatsLog
import DmrBridge.Outbound
import DmrBridge.Bridge
import DmrBridge.StreamOrder
import DmrBridge.Session
import DmrBridge.Shutdown
import DmrBridge.BurstAssembly
import DmrBridge.Usrp
import DmrBridge.UsrpCodec
import DmrBridge.Relay
import DmrBridge.Rptc
import DmrBridge.Keepalive
import DmrBridge.Statics
import DmrBridge.SlotCap
import DmrBridge.Agc
import DmrBridge.LimiterBound
import DmrBridge.UsrpRx
import DmrBridge.Wav
import DmrBridge.FmTask
import DmrBridge.FmTranscript
import DmrBridge.FmRecordings
import DmrBridge.Dv3000
import DmrBridge.Dv3000Codec
import DmrBridge.AmbeServer
import DmrBridge.SoftBackend
import DmrBridge.UdpDv
import DmrBridge.ThumbDv
import DmrBridge.RateGuard
import DmrBridge.AmbeRun
import DmrBridge.Homebrew
import DmrBridge.HomebrewTurn
import DmrBridge.HomebrewDialogue
import DmrBridge.HomebrewSession
import DmrBridge.HomebrewPulse
import DmrBridge.Linked
import DmrBridge.LinkedSafety
import DmrBridge.VoiceLoop
import DmrBridge.Playback
import DmrBridge.TwoBridges
