import VulnerableKext.Lib.Bytes
import VulnerableKext.Lib.Checked
import VulnerableKext.Lib.TermString
import VulnerableKext.Lib.BitField
import VulnerableKext.Lib.A64
import VulnerableKext.Lib.Shared
import VulnerableKext.Lib.Total
import VulnerableKext.Lib.Runs
import VulnerableKext.Lib.Latest
import VulnerableKext.Format
import VulnerableKext.Host.TextParser
import VulnerableKext.Host.SymbolsFile
import VulnerableKext.Host.Grammar
import VulnerableKext.Host.TextParserSpec
import VulnerableKext.Host.SymbolsFileCorrect
import VulnerableKext.Host.SymbolsFileRender
import VulnerableKext.Host.KcsState
import VulnerableKext.Host.KcsInvariant
import VulnerableKext.Host.Collected
import VulnerableKext.Host.Serialise
import VulnerableKext.Host.SerialiseStores
import VulnerableKext.Host.PongoUsb
import VulnerableKext.Host.Instances
import VulnerableKext.Host.RawParser
import VulnerableKext.Host.RawParserBounds
import VulnerableKext.Host.RawParserRuns
import VulnerableKext.Device.SymbolTable
import VulnerableKext.Device.Decoder
import VulnerableKext.Device.KernelUuid
import VulnerableKext.Device.SymbolCommands
import VulnerableKext.Device.DecoderFormat
import VulnerableKext.Device.DecoderStores
import VulnerableKext.Device.SymbolRuns
import VulnerableKext.System.RoundTrip
import VulnerableKext.System.FileOrder
import VulnerableKext.Lib.Memory
import VulnerableKext.Lib.Writes
import VulnerableKext.Lib.Updates
import VulnerableKext.Kext.Parse
import VulnerableKext.Kext.Commands
import VulnerableKext.Kext.Accepted
import VulnerableKext.Kext.Load
import VulnerableKext.Kext.MapSpec
import VulnerableKext.Kext.RelocateSpec
import VulnerableKext.Kext.SymbolChecks
import VulnerableKext.Kext.ParseReads
import VulnerableKext.Kext.LoadCommands
import VulnerableKext.Kext.WellFormed
import VulnerableKext.Kext.AddressTests
import VulnerableKext.Kext.RelocationBounds
import VulnerableKext.Kext.LinkedImage
import VulnerableKext.Kext.Segments
import VulnerableKext.Kext.Prelink
import VulnerableKext.Kext.PrelinkDictionary
import VulnerableKext.Kext.PrelinkRuns
import VulnerableKext.Kext.LoadedImage
import VulnerableKext.Patch.Instructions
import VulnerableKext.Patch.OskextInit
import VulnerableKext.Patch.XnuPf
import VulnerableKext.Patch.PatchSet
import VulnerableKext.Vulnerable.Sockopt
import VulnerableKext.Vulnerable.Handlers
import VulnerableKext.Vulnerable.DoubleFetch
import VulnerableKext.Vulnerable.OptionBuffer
import VulnerableKext.System.PongoModule
import VulnerableKext.System.ModuleRuns
import VulnerableKext.System.EndToEnd
import VulnerableKext.System.Delivery
import VulnerableKext.Lib.Typestate
import VulnerableKext.Vulnerable.Requests
