import SovereignJedi.Crypto.Exports
import SovereignJedi.Crypto.Hex
import SovereignJedi.Crypto.Hkdf
import SovereignJedi.Files.Gate
import SovereignJedi.Files.RoundTrip
import SovereignJedi.Files.Tamper
import SovereignJedi.Ipfs.Client
import SovereignJedi.Ipfs.Context
import SovereignJedi.Manifest.Authentic
import SovereignJedi.Manifest.Chain
import SovereignJedi.Manifest.Clusters
import SovereignJedi.Manifest.FairLock
import SovereignJedi.Manifest.PointerMap
import SovereignJedi.Manifest.SharedTabs
import SovereignJedi.Pages.Debug
import SovereignJedi.Pages.Init
import SovereignJedi.Pages.Proof
import SovereignJedi.Pages.PublishButton
import SovereignJedi.Pages.Publishing
import SovereignJedi.Pages.Uploads
import SovereignJedi.Registry.Devices
import SovereignJedi.Registry.Dump
import SovereignJedi.Registry.Grammar
import SovereignJedi.Registry.Order
import SovereignJedi.Registry.Retry
import SovereignJedi.Registry.Size
import SovereignJedi.Session.Expiry
import SovereignJedi.Session.Failure
import SovereignJedi.Session.Locking
import SovereignJedi.Session.Noninterference
import SovereignJedi.Session.Tabs
import SovereignJedi.Storage.History
import SovereignJedi.Storage.Instances
import SovereignJedi.Storage.Put
import SovereignJedi.Vault.Files
import SovereignJedi.Wallet.Messages
import SovereignJedi.Wallet.Signature
