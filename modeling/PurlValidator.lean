import PurlValidator.Lib.Utf8
import PurlValidator.Lib.SortedKeys
import PurlValidator.Lib.Bisect
import PurlValidator.Lib.Run
import PurlValidator.Lib.Registry
import PurlValidator.Lib.Separators
import PurlValidator.Lib.Lines
import PurlValidator.Lib.Results
import PurlValidator.Lib.Leases
import PurlValidator.Python.Text
import PurlValidator.Python.Numerals
import PurlValidator.Index.Entry
import PurlValidator.Index.Build
import PurlValidator.Index.Store
import PurlValidator.Index.Identity
import PurlValidator.Index.History
import PurlValidator.Index.Interleaving
import PurlValidator.Index.Answers
import PurlValidator.Index.Shipped
import PurlValidator.Index.Cleanup
import PurlValidator.Bench.Structures
import PurlValidator.Bench.Lines
import PurlValidator.Bench.Loaders
import PurlValidator.Bench.Lookups
import PurlValidator.Bench.Refusals
import PurlValidator.Bench.Queries
import PurlValidator.Bench.Processes
import PurlValidator.Bench.DataFiles
import PurlValidator.Bench.FstDawg
import PurlValidator.Bench.Options
import PurlValidator.Bench.Mains
import PurlValidator.Lib.Scripts
import PurlValidator.Bench.Implementations
