import Nes.Cpu.FlatMemory
import Nes.Cpu.Trace
import Nes.Main
import Nes.Proofs.Board.Actions
import Nes.Proofs.Console.StoredImage
import Nes.Proofs.Ppu.SpriteMarks
import Nes.Proofs.Console.SkippedFrame
import Nes.Proofs.Board.Layouts
import Nes.Proofs.Board.Installed
import Nes.Proofs.Console.InstalledBanks
import Nes.Proofs.Board.StartOver
import Nes.Proofs.Console.BoardReset
import Nes.Proofs.Console.Answers
import Nes.Proofs.Console.FreshStart
import Nes.Proofs.Console.IdleLoop
import Nes.Proofs.Console.UnsavedData
import Nes.Proofs.Host.Sessions
import Nes.Proofs.Image.Sections
import Nes.Proofs.MemoryMap
import Nes.Proofs.Console.Memories
import Nes.Proofs.Ppu.Reachable
import Nes.Proofs.Ppu.ScrollPlane
import Nes.Proofs.Ppu.PlainPicture
import Nes.Proofs.Console.CpuTime
import Nes.Proofs.Console.HostCopy
import Nes.Proofs.Console.LoadAnswers
import Nes.Proofs.Console.FailedLoads
import Nes.Proofs.Cpu.StatusByte
import Nes.Proofs.Apu.Calls
import Nes.Proofs.Host.CallEnds
import Nes.Proofs.Host.CallLoop
import Nes.Proofs.Pads
import Nes.Proofs.Ppu.Packed.Calls
import Nes.Proofs.Cpu.Combined
import Nes.Proofs.Cpu.LongArithmetic
import Nes.Proofs.Ppu.DataPort
import Nes.Proofs.Cpu.Boundaries
import Nes.Proofs.Cpu.InstructionBytes
import Nes.Proofs.Cpu.Returns
import Nes.Proofs.Console.LineInterrupts
import Nes.Proofs.Board.SerialPort
import Nes.Proofs.Apu.ToneLengths
import Nes.Proofs.Apu.SquareWave
import Nes.Proofs.Apu.SamplePlayback
import Nes.Proofs.PadReads
import Nes.Proofs.Host.FrameSlots
import Nes.Proofs.Host.PacedCalls
import Nes.Proofs.Console.SpriteTransfers
import Nes.Proofs.Apu.Decay
import Nes.Proofs.Ppu.ScrollWalk
import Nes.Proofs.Console.ResetButton
import Nes.Proofs.Console.Trainer
