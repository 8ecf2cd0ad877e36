import McuxDrivers.Sha.Background
import McuxDrivers.Sha.MasterPath
import McuxDrivers.Hashcrypt.Contexts
import McuxDrivers.Hashcrypt.Cfb
import McuxDrivers.Hashcrypt.Ctr
import McuxDrivers.FlexCan.FlexibleDataRate
import McuxDrivers.Lpuart.Background
import McuxDrivers.Lpuart.SendCount
import McuxDrivers.Lpuart.BaudRate
import McuxDrivers.Lpuart.Interrupts
import McuxDrivers.Edma.Counting
import McuxDrivers.Casper.ModExp
import McuxDrivers.Casper.TrialDigits
import McuxDrivers.Casper.DoubleScalar
import McuxDrivers.Casper.FieldWords
import McuxDrivers.Casper.Recode
import McuxDrivers.Lin.Response
import McuxDrivers.Netc.TxReports
import McuxDrivers.Netc.FilterLaw
import McuxDrivers.Netc.RxFrames
import McuxDrivers.Enet.TxReclaim
import McuxDrivers.Enet.TxFrames
import McuxDrivers.Enet.TxHanding
import McuxDrivers.Enet.SendFrames
import McuxDrivers.Enet.RxFrames
import McuxDrivers.Enet.ReadFrame
import McuxDrivers.Enet.PtpTimer
import McuxDrivers.Enet.PtpJump
import McuxDrivers.Lib.KeyTable
import McuxDrivers.Enet.MulticastFilter
import McuxDrivers.Glikey.Locking
import McuxDrivers.Csi.Buffers
import McuxDrivers.Sctimer.Resources
import McuxDrivers.I3c.DeviceList
import McuxDrivers.I3c.Answers
import McuxDrivers.I3c.Blocking
import McuxDrivers.I3c.Transaction
import McuxDrivers.I3c.BlockingRuns
import McuxDrivers.Mcan.Reception
import McuxDrivers.Mcan.Layout
import McuxDrivers.Mcan.BitTiming
import McuxDrivers.Mcan.ClassicalTiming
import McuxDrivers.Smartcard.Completion
import McuxDrivers.Lpi2c.NonBlocking
import McuxDrivers.Lpi2c.Words
import McuxDrivers.Lpi2c.Flow
import McuxDrivers.Lpi2c.Polled
import McuxDrivers.Lpi2c.Interrupts
import McuxDrivers.Lpi2c.DataPhase
import McuxDrivers.Lpi2c.Handler
import McuxDrivers.Lpi2c.SameStream
import McuxDrivers.Prince.Checker
import McuxDrivers.Prince.WholeAreas
import McuxDrivers.Prince.EncryptRange
import McuxDrivers.Edma4.Tcd
import McuxDrivers.Edma4.Builders
import McuxDrivers.Edma4.Driver
import McuxDrivers.Edma4.Submission
import McuxDrivers.Edma4.LoopTransfer
import McuxDrivers.SnvsHp.Datetime
import McuxDrivers.SnvsHp.Rtc
import McuxDrivers.SnvsHp.Seconds
import McuxDrivers.Lin.SendHistory
import McuxDrivers.Lin.TransferStatus
import McuxDrivers.Lin.Autobaud
import McuxDrivers.Lin.BaudRate
import McuxDrivers.Netc.MessageBounds
import McuxDrivers.Netc.TxRejects
import McuxDrivers.Netc.RxSetupBuffers
import McuxDrivers.Netc.HashTracking
import McuxDrivers.Netc.Timer
import McuxDrivers.Lib.Spans
import McuxDrivers.Usdhc.AdmaEntries
import McuxDrivers.Usdhc.AdmaTransfers
import McuxDrivers.Usdhc.AdmaTables
import McuxDrivers.Usdhc.ScatterGather
import McuxDrivers.Usdhc.ScatterGatherTables
import McuxDrivers.Usdhc.ClockChoice
import McuxDrivers.Usdhc.NearestClock
import McuxDrivers.Usdhc.DataPort
import McuxDrivers.Usdhc.PortWords
import McuxDrivers.Usdhc.PortPolls
import McuxDrivers.Usdhc.DataPortRuns
import McuxDrivers.I3c.IrqRuns
import McuxDrivers.I3c.SameTransaction
import McuxDrivers.I3c.BaudRate
import McuxDrivers.I3c.BaudLimits
import McuxDrivers.I3c.SlaveTransfer
import McuxDrivers.I3c.SlaveCounts
import McuxDrivers.Cache.ByRange
import McuxDrivers.Cache.CortexM7
import McuxDrivers.Lpi2c.BaudRate
import McuxDrivers.FractPll.Dfs
import McuxDrivers.FractPll.OutputRate
import McuxDrivers.Smartcard.WaitTimes
import McuxDrivers.Casper.Inversion
import McuxDrivers.Casper.Multiply
import McuxDrivers.Casper.PointMultiplication
import McuxDrivers.FlexCan.Mailbox
import McuxDrivers.FlexCan.MailboxRuns
import McuxDrivers.FlexCan.TransferRuns
import McuxDrivers.Hashcrypt.Background
import McuxDrivers.Hashcrypt.Modes
import McuxDrivers.Hashcrypt.Ofb
import McuxDrivers.Netc.RxCopies
import McuxDrivers.Netc.RxQueue
import McuxDrivers.FlexCan.EnhancedFifo
import McuxDrivers.FlexCan.EnhancedFifoRuns
import McuxDrivers.Csi.FragmentRuns
