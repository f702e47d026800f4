import Comedi.SerialCounter
import Comedi.RingMarks
import Comedi.SampleStream
import Comedi.GuardedRuns
import Comedi.BitFlags
import Comedi.SharedRegs
import Comedi.DataModel
import Comedi.AsyncBuffer
import Comedi.RingCounters
import Comedi.MungeBlocks
import Comedi.MungeStream
import Comedi.RingCopies
import Comedi.StreamFifo
import Comedi.StreamContents
import Comedi.RunState
import Comedi.ChanlistCheck
import Comedi.Instructions
import Comedi.StaleWords
import Comedi.Requests
import Comedi.CommandSteps
import Comedi.ReadWrite
import Comedi.Bufinfo
import Comedi.BufinfoOrder
import Comedi.Fc
import Comedi.CfcWrites
import Comedi.Poll
import Comedi.ReadSpecs
import Comedi.WriteSpecs
import Comedi.RequestEffects
import Comedi.Kcomedilib
import Comedi.PollNeutral
import Comedi.DeviceSteps
import Comedi.LockExclusion
import Comedi.LifeCycle
import Comedi.KernelCommands
import Comedi.EndOfAcquisition
import Comedi.ReadersWriters
import Comedi.OutputWrites
import Comedi.BufPages
import Comedi.MappedBuffers
import Comedi.MiteSync
import Comedi.NiTio
import Comedi.NiTioInsn
import Comedi.NiTioCmd
import Comedi.NiTioFootprints
import Comedi.NiTioSteps
import Comedi.NiTioCalls
import Comedi.NiTioFaults
import Comedi.NiTioReadback
import Comedi.NiTioGateReadback
import Comedi.NiTioTrace
import Comedi.NiTioClock
import Comedi.NiTioGates
import Comedi.NiTioReadable
import Comedi.NiTioShadow
import Comedi.ModuleRefs
import Comedi.Tables
import Comedi.MinorTable
import Comedi.BitFields
import Comedi.RangeWords
import Comedi.Compat32
import Comedi.WireStreams
import Comedi.Serial2002
import Comedi.SerialRoundTrip
import Comedi.RealTime
import Comedi.RtTimer
import Comedi.RtTimerRuns
import Comedi.Pcidas64
import Comedi.Pcidas64Samples
import Comedi.Pcidas64Ring
import Comedi.Pcidas64Output
import Comedi.CommandStarts
import Comedi.Pcidas64Queue
import Comedi.Pci230
import Comedi.Pci230Counters
import Comedi.Pci230Scans
import Comedi.Das1800
import Comedi.Das1800Samples
import Comedi.Ni660xPfi
import Comedi.Ni660xPins
import Comedi.Ni660xRegisters
import Comedi.Ni660xInterrupts
import Comedi.Ni660xIsolation
import Comedi.CommandEnds
import Comedi.CounterChannels
import Comedi.CounterChannelRuns
import Comedi.CfcCapacity
import Comedi.BufferResizes
import Comedi.MiteRing
import Comedi.Bonding
import Comedi.BondedChannels
import Comedi.S626Counters
import Comedi.S626Settings
import Comedi.SampleSink
import Comedi.LabPc
import Comedi.LabPcSamples
import Comedi.Rtd520
import Comedi.I8253
import Comedi.NiTioArm
import Comedi.I8253Search
import Comedi.I8253Periods
import Comedi.I8253Rounding
import Comedi.I8253EarlyExit
import Comedi.RtPendTq
import Comedi.BondedDirections
import Comedi.BondedOpens
import Comedi.BaseChannel
import Comedi.MiteOutput
import Comedi.Retests
import Comedi.ComediTest
import Comedi.ComediTestArgs
import Comedi.ComediTestAmends
import Comedi.ComediTestSettles
import Comedi.FakeWaveform
import Comedi.FakeWaveformRuns
import Comedi.Rtd520Samples
import Comedi.ConfigRetry
import Comedi.Pcidas
import Comedi.PcidasSettles
import Comedi.Jr3Firmware
import Comedi.Jr3StartUp
import Comedi.Compaction
import Comedi.Serial2002Readback
import Comedi.A2150Lists
import Comedi.A2150Samples
import Comedi.NiAiShutdown
import Comedi.NiChanGainCache
import Comedi.NiAiSettles
import Comedi.NiOutputSettles
import Comedi.ShiftRegister
import Comedi.NiCaldac
import Comedi.NiCaldacReadback
import Comedi.NiPwm
import Comedi.Pcidas64Block
import Comedi.I2cBus
import Comedi.Pcidas64I2c
import Comedi.Repeats
import Comedi.Pci230Chanlist
import Comedi.Pci230ScanList
import Comedi.Pci230Timer
import Comedi.Pci230AiCmdtest
import Comedi.Pci230Monostable
import Comedi.Pci230AiSettles
import Comedi.I8253Pacing
import Comedi.Das1800Cmdtest
import Comedi.Das1800Settles
import Comedi.Das1800Transfer
import Comedi.Gathering
import Comedi.Dio200Intr
import Comedi.Dio200Counting
import Comedi.S626Dio
import Comedi.Ni65xx
import Comedi.Ni65xxEdges
import Comedi.Ni65xxPorts
import Comedi.Me4000
import Comedi.Me4000Lists
import Comedi.SignedTimer
import Comedi.S626Cmdtest
import Comedi.S626Settles
import Comedi.NiPcidioCmdtest
import Comedi.NiPcidioSettles
import Comedi.SignedCmdtests
import Comedi.CodeRuns
import Comedi.Rps
import Comedi.ResetAdc
import Comedi.AdcProgram
import Comedi.Me4000Cmdtest
import Comedi.Me4000Timing
import Comedi.Pci224Cmdtest
import Comedi.Pci224Settles
import Comedi.Pci224Pacing
import Comedi.Pci9118Cmdtest
import Comedi.Pci9118Settles
import Comedi.UsbduxTiming
import Comedi.Rtd520Cmdtest
import Comedi.Rtd520Settles
import Comedi.Pci9118Periods
import Comedi.Pci9118Protected
import Comedi.Pci9118Dma
import Comedi.PcidasSamples
import Comedi.PcidasAo
import Comedi.PcidasAoWord
import Comedi.PcidasAoRuns
import Comedi.Pcmuio
import Comedi.PcmuioRuns
import Comedi.Padding
import Comedi.Pci9118Samples
import Comedi.Pci224Output
import Comedi.Pci224OutputRuns
