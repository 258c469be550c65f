import Stm32F1Dfu.Lib.Machine
import Stm32F1Dfu.Lib.Trace
import Stm32F1Dfu.Device
import Stm32F1Dfu.Service
import Stm32F1Dfu.Execution
import Stm32F1Dfu.Region
import Stm32F1Dfu.Transfers
import Stm32F1Dfu.Downloads
import Stm32F1Dfu.Blocks
import Stm32F1Dfu.DataStage
import Stm32F1Dfu.Boot
import Stm32F1Dfu.Image
import Stm32F1Dfu.Update
import Stm32F1Dfu.NextBoot
import Stm32F1Dfu.TornUpdate
import Stm32F1Dfu.Link
import Stm32F1Dfu.Stages
import Stm32F1Dfu.Host
import Stm32F1Dfu.Phases
import Stm32F1Dfu.Lib.PageStore
import Stm32F1Dfu.Sessions
import Stm32F1Dfu.Pages
import Stm32F1Dfu.Commands
import Stm32F1Dfu.ReadBack
import Stm32F1Dfu.ReleaseTool
import Stm32F1Dfu.ErrorState
import Stm32F1Dfu.Turns
import Stm32F1Dfu.Acknowledged
import Stm32F1Dfu.Reassembly
import Stm32F1Dfu.Provenance
import Stm32F1Dfu.Registers
import Stm32F1Dfu.Confinement
import Stm32F1Dfu.Address
import Stm32F1Dfu.Records
import Stm32F1Dfu.Bookkeeping
import Stm32F1Dfu.Corruption
import Stm32F1Dfu.EndpointEvents
import Stm32F1Dfu.Reads
import Stm32F1Dfu.Flags
import Stm32F1Dfu.Delivery
import Stm32F1Dfu.Stale
import Stm32F1Dfu.Scratch
import Stm32F1Dfu.Lib.Frames
import Stm32F1Dfu.Lib.Bump
import Stm32F1Dfu.Framing
import Stm32F1Dfu.Uploads
import Stm32F1Dfu.BusReset
import Stm32F1Dfu.SafeWrite
import Stm32F1Dfu.Buffers
import Stm32F1Dfu.Protocol
import Stm32F1Dfu.Manifestation
import Stm32F1Dfu.Startup
import Stm32F1Dfu.Life
import Stm32F1Dfu.Recovery
import Stm32F1Dfu.Deploy
import Stm32F1Dfu.Lib.WordBits
import Stm32F1Dfu.Gpio
import Stm32F1Dfu.Lib.Serial
import Stm32F1Dfu.Spi
import Stm32F1Dfu.Wire
import Stm32F1Dfu.SramCalls
import Stm32F1Dfu.Fpec
import Stm32F1Dfu.Lib.Descriptors
import Stm32F1Dfu.Enumeration
import Stm32F1Dfu.RegisterBoot
import Stm32F1Dfu.Bursts
import Stm32F1Dfu.Lib.SectorMap
import Stm32F1Dfu.MemoryMap
import Stm32F1Dfu.Listening
import Stm32F1Dfu.Retry
import Stm32F1Dfu.Verify
