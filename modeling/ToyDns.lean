import ToyDns.Wire
import ToyDns.RecordName
import ToyDns.Message
import ToyDns.Query
import ToyDns.NameStep
import ToyDns.Compression
import ToyDns.Layout
import ToyDns.Termination
import ToyDns.Agreement
import ToyDns.Encoding
import ToyDns.Serialize
import ToyDns.Resolver
import ToyDns.Address
import ToyDns.Transport
import ToyDns.Socket
import ToyDns.Cli
import ToyDns.Errors
